import Rssh.Auth.Agent

/-!
# The authentication plan

`authenticate_auth_plan_with_backend` takes the plan of a connection request, asks the secret
provider for what the request does not bring along, and hands the secret to one method of the
backend. The run is modelled with the two things an observer can count: the prompts, each with
its answer, and the calls of the backend.

* `NeedsPrompt` says which prompt a request needs, `Passes` what the backend is to be given.
* `AuthRun` is everything a run of a plan can do, and `authenticate_run` that it does nothing else.
* `auth_plan_calls_backend_once` is the result about all requests, providers, keys and backends.
-/

namespace Rssh

/-! ## Prompts, keys and the backend -/

inductive SecretPromptKind where
  | password
  | privateKeyPassphrase
deriving DecidableEq, Repr

structure SecretPrompt where
  username : String
  kind : SecretPromptKind
deriving DecidableEq, Repr

/-- What `RusshPrivateKeyAuth::load` fails with, as far as it is told apart. Another error is
its text. -/
inductive KeyLoadError where
  | keyIsEncrypted
  | other (message : String)
deriving DecidableEq, Repr

/-- The calls of a `RusshAuthenticationBackend`. -/
inductive BackendCall where
  | password (username password : String)
  | privateKey (username path : String) (passphrase : Option String)
  | agent (username : String)
deriving DecidableEq, Repr

/-- All that the outside decides. A provider answers its `n`-th prompt, where `none` is a
cancellation, and the backend its `n`-th call; `loadKey` is `load` without a passphrase. -/
structure AuthEnv where
  secretProvider : Option (Nat → SecretPrompt → Option String)
  loadKey : String → Except KeyLoadError Unit
  backend : Nat → BackendCall → Except SshSessionError AuthResult

structure AuthLog where
  prompts : List (SecretPrompt × Option String) := []
  calls : List BackendCall := []
deriving DecidableEq, Repr

abbrev AuthM := EStateM SshSessionError AuthLog

namespace AuthEnv

variable (env : AuthEnv)

/-- `RusshPrivateKeyAuth::needs_passphrase`. -/
def needsPassphrase (path : String) : Except String Bool :=
  match env.loadKey path with
  | .ok () => .ok false
  | .error .keyIsEncrypted => .ok true
  | .error (.other message) => .error message

/-- One `SecretProvider::prompt`. -/
def prompt (provider : Nat → SecretPrompt → Option String) (prompt : SecretPrompt) :
    AuthM (Option String) := fun log =>
  let answer := provider log.prompts.length prompt
  .ok answer { log with prompts := log.prompts ++ [(prompt, answer)] }

/-- One call of the backend. -/
def callBackend (call : BackendCall) : AuthM AuthResult := fun log =>
  let log' := { log with calls := log.calls ++ [call] }
  match env.backend log.calls.length call with
  | .ok result => .ok result log'
  | .error error => .error error log'

end AuthEnv

/-! ## The plan -/

inductive RusshAuthRequest where
  | password (password : String)
  | passwordPrompt
  | privateKey (path : String) (passphrase : Option String)
  | agent
deriving DecidableEq, Repr

structure RusshAuthPlan where
  username : String
  request : RusshAuthRequest
deriving DecidableEq, Repr

/-- `RusshAuthPlan::from_request`. -/
def RusshAuthPlan.fromRequest (request : SshConnectRequest) : RusshAuthPlan where
  username := request.config.username
  request :=
    match request.auth with
    | .password password => .password password
    | .passwordPrompt => .passwordPrompt
    | .privateKey path passphrase => .privateKey path passphrase
    | .agent => .agent

namespace AuthEnv

variable (env : AuthEnv)

/-- A prompt that has to be answered: the provider must be there, and must not cancel. -/
def requireSecret (secretPrompt : SecretPrompt) (unavailable cancelled : String) :
    AuthM String := do
  match env.secretProvider with
  | none => throw ⟨unavailable⟩
  | some provider =>
      match ← prompt provider secretPrompt with
      | none => throw ⟨cancelled⟩
      | some secret => pure secret

/-- The passphrase that is asked for, if the key is encrypted and the request has none. -/
def promptedPassphrase (username path : String) (passphrase : Option String) :
    AuthM (Option String) := do
  -- the inspection stands behind `&&`, so a request with a passphrase does not inspect its key
  if passphrase.isNone then
    match env.needsPassphrase path with
    | .error error => throw ⟨"SSH private-key inspection failed: " ++ error⟩
    | .ok true =>
        some <$> env.requireSecret ⟨username, .privateKeyPassphrase⟩
          "encrypted SSH private key requires a secret provider"
          "SSH private-key passphrase prompt was cancelled"
    | .ok false => pure none
  else pure none

/-- The `result` of `authenticate_auth_plan_with_backend`, the answer to its one call. -/
def resultOf (username : String) : RusshAuthRequest → AuthM AuthResult
  | .password password => env.callBackend (.password username password)
  | .passwordPrompt => do
      let password ← env.requireSecret ⟨username, .password⟩
        "SSH password prompt requires a secret provider" "SSH password prompt was cancelled"
      env.callBackend (.password username password)
  | .privateKey path passphrase => do
      let prompted ← env.promptedPassphrase username path passphrase
      env.callBackend (.privateKey username path (prompted.or passphrase))
  | .agent => env.callBackend (.agent username)

/-- `authenticate_auth_plan_with_backend`. -/
def authenticateAuthPlanWithBackend (authPlan : RusshAuthPlan) : AuthM RusshAuthOutcome := do
  let result ← env.resultOf authPlan.username authPlan.request
  match RusshAuthOutcome.fromAuthResult result with
  | .ok outcome => pure outcome
  | .error error => throw error

/-- What a program returns, and what it leaves in the log. -/
def ended {α : Type} : EStateM.Result SshSessionError AuthLog α →
    Except SshSessionError α × AuthLog
  | .ok value log => (.ok value, log)
  | .error error log => (.error error, log)

/-- A run for a request: what it returns, with the prompts and the calls it made. -/
def authenticate (request : SshConnectRequest) :
    Except SshSessionError RusshAuthOutcome × AuthLog :=
  ended (env.authenticateAuthPlanWithBackend (.fromRequest request) {})

/-! ## What a run can do -/

/-- The request cannot do without a prompt of this kind. -/
def NeedsPrompt (auth : SshAuthMethod) : SecretPromptKind → Prop
  | .password => auth = .passwordPrompt
  | .privateKeyPassphrase =>
      ∃ path, auth = .privateKey path none ∧ env.loadKey path = .error .keyIsEncrypted

/-- The key of the request cannot be inspected. -/
def InspectionFails (auth : SshAuthMethod) : Prop :=
  ∃ path message, auth = .privateKey path none ∧ env.loadKey path = .error (.other message)

/-- The request can do without a prompt, or the prompt that it needs is answered with a secret. -/
def Supplied (request : SshConnectRequest) : Option String → Prop
  | none => ∀ kind, ¬ env.NeedsPrompt request.auth kind
  | some secret => ∃ kind provider, env.NeedsPrompt request.auth kind ∧
      env.secretProvider = some provider ∧
        provider 0 ⟨request.config.username, kind⟩ = some secret

end AuthEnv

/-- The secret that the request itself brings along. -/
def SshAuthMethod.ownSecret : SshAuthMethod → Option String
  | .password own => some own
  | .passwordPrompt => none
  | .privateKey _ passphrase => passphrase
  | .agent => none

/-- The call belongs to the request: it has the username, and as its secret the request's own or
else the prompted one. -/
def Passes (request : SshConnectRequest) (prompted : Option String) : BackendCall → Prop
  | .password username password =>
      (request.auth = .passwordPrompt ∨ ∃ own, request.auth = .password own) ∧
        username = request.config.username ∧ some password = request.auth.ownSecret.or prompted
  | .privateKey username path passphrase =>
      (∃ own, request.auth = .privateKey path own) ∧
        username = request.config.username ∧ passphrase = request.auth.ownSecret.or prompted
  | .agent username => request.auth = .agent ∧ username = request.config.username

namespace AuthEnv

/-- What the function makes of the answer to its one call. -/
def answerTo (env : AuthEnv) (call : BackendCall) : Except SshSessionError RusshAuthOutcome :=
  (env.backend 0 call).bind RusshAuthOutcome.fromAuthResult

/-- Everything a run for a request can do. -/
inductive AuthRun (env : AuthEnv) (request : SshConnectRequest) :
    Except SshSessionError RusshAuthOutcome × AuthLog → Prop
  | uninspected {error : SshSessionError} (hfails : env.InspectionFails request.auth) :
      AuthRun env request (.error error, {})
  | unavailable {kind : SecretPromptKind} {error : SshSessionError}
      (hneeds : env.NeedsPrompt request.auth kind) (hprovider : env.secretProvider = none) :
      AuthRun env request (.error error, {})
  | cancelled {kind : SecretPromptKind} {provider : Nat → SecretPrompt → Option String}
      {error : SshSessionError} (hneeds : env.NeedsPrompt request.auth kind)
      (hprovider : env.secretProvider = some provider)
      (hanswer : provider 0 ⟨request.config.username, kind⟩ = none) :
      AuthRun env request
        (.error error, { prompts := [(⟨request.config.username, kind⟩, none)] })
  | prompted {kind : SecretPromptKind} {provider : Nat → SecretPrompt → Option String}
      {secret : String} {call : BackendCall} (hneeds : env.NeedsPrompt request.auth kind)
      (hprovider : env.secretProvider = some provider)
      (hanswer : provider 0 ⟨request.config.username, kind⟩ = some secret)
      (hpasses : Passes request (some secret) call) :
      AuthRun env request
        (env.answerTo call,
          { prompts := [(⟨request.config.username, kind⟩, some secret)], calls := [call] })
  | direct {call : BackendCall} (hneeds : ∀ kind, ¬ env.NeedsPrompt request.auth kind)
      (hfails : ¬ env.InspectionFails request.auth) (hpasses : Passes request none call) :
      AuthRun env request (env.answerTo call, { calls := [call] })

variable {env : AuthEnv} {request : SshConnectRequest}

/-- A composed run ends with its second part, or with the error of its first. -/
theorem ended_bind {α β : Type} (x : AuthM α) (f : α → AuthM β) (log : AuthLog) :
    ended ((x >>= f) log) = match ended (x log) with
      | (.ok value, log') => ended (f value log')
      | (.error error, log') => (.error error, log') := by
  change ended (EStateM.bind x f log) = _
  unfold EStateM.bind
  cases x log <;> rfl

/-- The end of the function, which makes an outcome of the backend's answer. -/
theorem ended_fromAuthResult (x : AuthM AuthResult) :
    ended ((x >>= fun result =>
        match RusshAuthOutcome.fromAuthResult result with
        | .ok outcome => pure outcome
        | .error error => throw error : AuthM RusshAuthOutcome) {}) =
      ((ended (x {})).1.bind RusshAuthOutcome.fromAuthResult, (ended (x {})).2) := by
  rw [ended_bind]
  rcases ended (x {}) with ⟨error | result, log⟩
  · rfl
  · simp only [Except.bind]
    cases RusshAuthOutcome.fromAuthResult result <;> rfl

theorem ended_callBackend (call : BackendCall) (prompts : List (SecretPrompt × Option String)) :
    ended (env.callBackend call { prompts }) =
      (env.backend 0 call, { prompts, calls := [call] }) := by
  unfold callBackend
  simp only [List.length_nil, List.nil_append]
  cases env.backend 0 call <;> rfl

/-- A secret that is required: there is no provider, the prompt is cancelled, or it is
answered. -/
theorem ended_requireSecret (secretPrompt : SecretPrompt) (unavailable cancelled : String) :
    ended (env.requireSecret secretPrompt unavailable cancelled {}) =
      match env.secretProvider with
      | none => (.error ⟨unavailable⟩, {})
      | some provider =>
          match provider 0 secretPrompt with
          | none => (.error ⟨cancelled⟩, { prompts := [(secretPrompt, none)] })
          | some secret => (.ok secret, { prompts := [(secretPrompt, some secret)] }) := by
  unfold requireSecret
  cases env.secretProvider with
  | none => rfl
  | some provider =>
      simp only
      rw [ended_bind]
      simp only [prompt, ended, List.length_nil, List.nil_append]
      cases provider 0 secretPrompt <;> rfl

/-- A run that needs a prompt: the secret is asked for, and goes to the call. -/
theorem authRun_of_prompt {kind : SecretPromptKind} (unavailable cancelled : String)
    (call : String → BackendCall) (hneeds : env.NeedsPrompt request.auth kind)
    (hpasses : ∀ secret, Passes request (some secret) (call secret)) :
    let asked := ended ((env.requireSecret ⟨request.config.username, kind⟩ unavailable cancelled
      >>= fun secret => env.callBackend (call secret)) {})
    AuthRun env request (asked.1.bind RusshAuthOutcome.fromAuthResult, asked.2) := by
  intro asked
  have hasked : asked = _ := (ended_bind _ _ _).trans (by rw [ended_requireSecret])
  rw [hasked]
  cases hprovider : env.secretProvider with
  | none => exact .unavailable hneeds hprovider
  | some provider =>
      simp only
      cases hanswer : provider 0 ⟨request.config.username, kind⟩ with
      | none => exact .cancelled hneeds hprovider hanswer
      | some secret =>
          simp only [ended_callBackend]
          exact .prompted hneeds hprovider hanswer (hpasses secret)

/-- A run that needs no prompt and no inspection that fails: there is the call, and that is
all. -/
theorem authRun_of_call {call : BackendCall} (hneeds : ∀ kind, ¬ env.NeedsPrompt request.auth kind)
    (hfails : ¬ env.InspectionFails request.auth) (hpasses : Passes request none call) :
    AuthRun env request
      ((ended (env.callBackend call {})).1.bind RusshAuthOutcome.fromAuthResult,
        (ended (env.callBackend call {})).2) := by
  rw [ended_callBackend]
  exact .direct hneeds hfails hpasses

/-- The run of a private key that comes without a passphrase follows the inspection. -/
theorem authRun_of_key {path : String} (hauth : request.auth = .privateKey path none) :
    let keyed := ended ((env.promptedPassphrase request.config.username path none >>=
      fun prompted =>
        env.callBackend (.privateKey request.config.username path (prompted.or none))) {})
    AuthRun env request (keyed.1.bind RusshAuthOutcome.fromAuthResult, keyed.2) := by
  unfold promptedPassphrase needsPassphrase
  cases hkey : env.loadKey path with
  | ok loaded =>
      refine authRun_of_call ?_ ?_ ?_
      · intro kind
        cases kind <;> simp [NeedsPrompt, hauth, hkey]
      · simp [InspectionFails, hauth, hkey]
      · simp [Passes, hauth, SshAuthMethod.ownSecret]
  | error error =>
      cases error with
      | other message => exact .uninspected ⟨path, message, hauth, hkey⟩
      | keyIsEncrypted =>
          -- only an encrypted key asks for its passphrase
          have hneeds : env.NeedsPrompt request.auth .privateKeyPassphrase := ⟨path, hauth, hkey⟩
          have hrun := authRun_of_prompt "encrypted SSH private key requires a secret provider"
            "SSH private-key passphrase prompt was cancelled"
            (fun secret => .privateKey request.config.username path (some secret)) hneeds
            (by simp [Passes, hauth, SshAuthMethod.ownSecret])
          simp only [Option.isNone_none, if_true, bind_map_left, Option.or_none]
          exact hrun

/-- A run does nothing that `AuthRun` does not list. -/
theorem authenticate_run (env : AuthEnv) (request : SshConnectRequest) :
    AuthRun env request (env.authenticate request) := by
  unfold authenticate authenticateAuthPlanWithBackend RusshAuthPlan.fromRequest
  rw [ended_fromAuthResult]
  unfold resultOf
  cases hauth : request.auth with
  | password own =>
      refine authRun_of_call ?_ ?_ ?_
      · intro kind
        cases kind <;> simp [NeedsPrompt, hauth]
      · simp [InspectionFails, hauth]
      · simp [Passes, hauth, SshAuthMethod.ownSecret]
  | agent =>
      refine authRun_of_call ?_ ?_ ?_
      · intro kind
        cases kind <;> simp [NeedsPrompt, hauth]
      · simp [InspectionFails, hauth]
      · simp [Passes, hauth]
  | passwordPrompt =>
      refine authRun_of_prompt _ _ (.password request.config.username) hauth ?_
      intro secret
      simp [Passes, hauth, SshAuthMethod.ownSecret]
  | privateKey path passphrase =>
      cases passphrase with
      | none => exact authRun_of_key hauth
      | some own =>
          -- the key is not inspected
          refine authRun_of_call ?_ ?_ ?_
          · intro kind
            cases kind <;> simp [NeedsPrompt, hauth]
          · simp [InspectionFails, hauth]
          · simp [Passes, hauth, SshAuthMethod.ownSecret]

/-! ## The prompts and the calls of a run -/

/-- The outcome of a run with one call is the outcome of the call. -/
theorem answerTo_ok_iff {call : BackendCall} :
    env.answerTo call = .ok .authenticated ↔
      ∃ answer, env.backend 0 call = .ok answer ∧ answer.succeeded = true := by
  unfold answerTo
  cases env.backend 0 call with
  | error error => simp [Except.bind]
  | ok answer => cases answer <;> simp [Except.bind, RusshAuthOutcome.fromAuthResult,
      AuthResult.succeeded]

theorem NeedsPrompt.kind_eq {auth : SshAuthMethod} {kind other : SecretPromptKind}
    (hneeds : env.NeedsPrompt auth kind) (hother : env.NeedsPrompt auth other) :
    other = kind := by
  cases kind <;> cases other <;> first | rfl | simp_all [NeedsPrompt]

/-- A key that needs a passphrase has been inspected. -/
theorem NeedsPrompt.not_inspectionFails {auth : SshAuthMethod} {kind : SecretPromptKind}
    (hneeds : env.NeedsPrompt auth kind) : ¬ env.InspectionFails auth := by
  rintro ⟨path, message, hauth, hkey⟩
  cases kind with
  | password => simp [NeedsPrompt, hauth] at hneeds
  | privateKeyPassphrase =>
      obtain ⟨keyPath, hkeyAuth, hencrypted⟩ := hneeds
      simp_all

section Run

variable {ran : Except SshSessionError RusshAuthOutcome × AuthLog}

/-- A run authenticates by the success of its one call, and not otherwise. -/
theorem AuthRun.authenticated_iff (hrun : env.AuthRun request ran) :
    ran.1 = .ok .authenticated ↔ ∃ call answer, ran.2.calls = [call] ∧
      env.backend 0 call = .ok answer ∧ answer.succeeded = true := by
  cases hrun with
  | uninspected | unavailable | cancelled => simp
  | direct | prompted =>
      simp only [answerTo_ok_iff]
      simp

/-- Without the secret it needs, a run makes no call. -/
theorem AuthRun.calls_of_unanswered (hrun : env.AuthRun request ran) {kind : SecretPromptKind}
    (hneeds : env.NeedsPrompt request.auth kind)
    (hunanswered : ∀ provider, env.secretProvider = some provider →
      provider 0 ⟨request.config.username, kind⟩ = none) : ran.2.calls = [] := by
  cases hrun with
  | uninspected | unavailable | cancelled => rfl
  | direct hnone => exact absurd hneeds (hnone kind)
  | prompted hother hprovider hanswer =>
      -- the prompt that is needed is the one that was answered
      obtain rfl := hother.kind_eq hneeds
      have hnone := hunanswered _ hprovider
      rw [hanswer] at hnone
      cases hnone

theorem AuthRun.calls_of_uninspected (hrun : env.AuthRun request ran)
    (hfails : env.InspectionFails request.auth) : ran.2.calls = [] := by
  cases hrun with
  | uninspected | unavailable | cancelled => rfl
  | direct hneeds hinspected => exact absurd hfails hinspected
  | prompted hneeds => exact absurd hfails hneeds.not_inspectionFails

/-- A run prompts once at most, for its own user and only where it must. -/
theorem AuthRun.prompts (hrun : env.AuthRun request ran) :
    ran.2.prompts.length ≤ 1 ∧ ∀ prompt answer, (prompt, answer) ∈ ran.2.prompts →
      prompt.username = request.config.username ∧ env.NeedsPrompt request.auth prompt.kind := by
  cases hrun with
  | uninspected | unavailable | direct => simp
  | cancelled hneeds | prompted hneeds => simp [hneeds]

theorem AuthRun.passes (hrun : env.AuthRun request ran) :
    ∀ call ∈ ran.2.calls, Passes request (ran.2.prompts.head?.bind Prod.snd) call := by
  cases hrun with
  | uninspected | unavailable | cancelled => simp
  | direct _ _ hpasses | prompted _ _ _ hpasses => simpa using hpasses

/-- A run that has the secret it needs, and no inspection that fails, makes its one call, and
returns the answer. -/
theorem AuthRun.calls_of_supplied (hrun : env.AuthRun request ran) {prompted : Option String}
    (hsupplied : env.Supplied request prompted) (hinspected : ¬ env.InspectionFails request.auth) :
    ∃ call, ran.2.calls = [call] ∧ Passes request prompted call ∧ ran.1 = env.answerTo call := by
  -- a secret that was given is the answer of the one provider to the one prompt
  have hanswered : ∀ {kind : SecretPromptKind} {provider : Nat → SecretPrompt → Option String},
      env.NeedsPrompt request.auth kind → env.secretProvider = some provider →
      ∃ secret, prompted = some secret ∧
        provider 0 ⟨request.config.username, kind⟩ = some secret := by
    intro kind provider hneeds hprovider
    cases prompted with
    | none => exact absurd hneeds (hsupplied kind)
    | some secret =>
        rcases hsupplied with ⟨other, provider', hother, hsome, hsecret⟩
        obtain rfl := hneeds.kind_eq hother
        obtain rfl := Option.some.inj (hprovider.symm.trans hsome)
        exact ⟨secret, rfl, hsecret⟩
  cases hrun with
  | uninspected hfails => exact absurd hfails hinspected
  | unavailable hneeds hprovider =>
      cases prompted with
      | none => exact absurd hneeds (hsupplied _)
      | some secret =>
          rcases hsupplied with ⟨kind, provider, -, hsome, -⟩
          rw [hprovider] at hsome
          cases hsome
  | cancelled hneeds hprovider hanswer =>
      rcases hanswered hneeds hprovider with ⟨secret, -, hsecret⟩
      rw [hanswer] at hsecret
      cases hsecret
  | @prompted kind provider secret call hneeds hprovider hanswer hpasses =>
      rcases hanswered hneeds hprovider with ⟨given, rfl, hsecret⟩
      obtain rfl := Option.some.inj (hanswer.symm.trans hsecret)
      exact ⟨call, rfl, hpasses, rfl⟩
  | @direct call hneeds hfails hpasses =>
      cases prompted with
      | none => exact ⟨call, rfl, hpasses, rfl⟩
      | some secret =>
          rcases hsupplied with ⟨kind, -, hkind, -⟩
          exact absurd hkind (hneeds kind)

end Run

/-- What `authenticate_auth_plan_with_backend` does, over all requests, providers, keys and
backends: it authenticates by one successful call and not otherwise, calls nothing without the
secret it needs, prompts once at most and only where it must, and passes on what it was given.
With the secret it needs it always makes its call, and returns what the backend answers. -/
theorem auth_plan_calls_backend_once (env : AuthEnv) (request : SshConnectRequest) :
    let (result, log) := env.authenticate request
    (result = .ok .authenticated ↔ ∃ call answer, log.calls = [call] ∧
      env.backend 0 call = .ok answer ∧ answer.succeeded = true) ∧
    (∀ kind, env.NeedsPrompt request.auth kind →
      (∀ provider, env.secretProvider = some provider →
        provider 0 ⟨request.config.username, kind⟩ = none) → log.calls = []) ∧
    (env.InspectionFails request.auth → log.calls = []) ∧
    log.prompts.length ≤ 1 ∧
    (∀ prompt answer, (prompt, answer) ∈ log.prompts →
      prompt.username = request.config.username ∧ env.NeedsPrompt request.auth prompt.kind) ∧
    (∀ call ∈ log.calls, Passes request (log.prompts.head?.bind Prod.snd) call) ∧
    (∀ prompted, env.Supplied request prompted → ¬ env.InspectionFails request.auth →
      ∃ call, log.calls = [call] ∧ Passes request prompted call ∧
        result = env.answerTo call) := by
  have hrun := authenticate_run env request
  refine ⟨hrun.authenticated_iff, ?_, hrun.calls_of_uninspected, hrun.prompts.1, hrun.prompts.2,
    hrun.passes, ?_⟩
  · intro kind hneeds hunanswered
    exact hrun.calls_of_unanswered hneeds hunanswered
  · intro prompted hsupplied hinspected
    exact hrun.calls_of_supplied hsupplied hinspected

end AuthEnv

end Rssh
