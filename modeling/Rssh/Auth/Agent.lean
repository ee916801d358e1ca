import Mathlib.Data.List.Basic
import Rssh.Types

/-!
# Agent authentication

`authenticate_agent_with_client` asks the agent for its identities and offers them to the server
until one is accepted. The agent signs each offer, and may fail or decline to do so for one
identity and not for another.

* `authenticateAgentWithClient` returns the result together with the offers it made.
* `TriesInOrder` is what a user expects of the loop.
* `agent_tries_in_order_iff` says for which answers the loop meets it.
-/

namespace Rssh

/-! ## The loop -/

/-- `russh::client::AuthResult`. -/
inductive AuthResult where
  | success
  | failure (remainingMethods : List String) (partialSuccess : Bool)
deriving DecidableEq, Repr

/-- `AuthResult::success`. -/
def AuthResult.succeeded : AuthResult → Bool
  | .success => true
  | .failure _ _ => false

inductive RusshAuthOutcome where
  | authenticated
deriving DecidableEq, Repr

def RusshAuthOutcome.fromAuthResult (authResult : AuthResult) :
    Except SshSessionError RusshAuthOutcome :=
  if authResult.succeeded then .ok .authenticated
  else .error ⟨"SSH authentication failed"⟩

variable {Key Certificate Hash : Type}

/-- `russh::keys::agent::AgentIdentity`. -/
inductive AgentIdentity (Key Certificate : Type) where
  | publicKey (key : Key)
  | certificate (cert : Certificate)
deriving DecidableEq, Repr

/-- The calls of `authenticate_publickey_with` and `authenticate_certificate_with`. -/
inductive Offer (Key Certificate Hash : Type) where
  | publicKey (username : String) (key : Key) (rsaHash : Option Hash)
  | certificate (username : String) (cert : Certificate) (rsaHash : Option Hash)
deriving DecidableEq, Repr

def AgentIdentity.offer (username : String) (rsaHash : Option Hash) :
    AgentIdentity Key Certificate → Offer Key Certificate Hash
  | .publicKey key => .publicKey username key rsaHash
  | .certificate cert => .certificate username cert rsaHash

/-- What the agent and the server answer. `authenticate n` answers the `n`-th offer: an error is
the agent's, a result the server's. -/
structure AgentSession (Key Certificate Hash : Type) where
  requestIdentities : Except String (List (AgentIdentity Key Certificate))
  bestSupportedRsaHash : Except String (Option (Option Hash))
  authenticate : Nat → Offer Key Certificate Hash → Except String AuthResult

namespace AgentSession

variable (session : AgentSession Key Certificate Hash) (username : String) (rsaHash : Option Hash)

/-- The loop over the identities, the first of them being number `n`: its result, and the offers
it made. -/
def offerIdentities : Nat → List (AgentIdentity Key Certificate) →
    Except SshSessionError AuthResult × List (Offer Key Certificate Hash)
  | _, [] => (.ok (.failure [] false), [])
  | n, identity :: identities =>
      let offer := identity.offer username rsaHash
      match session.authenticate n offer with
      -- the `?` leaves the loop, whatever identities there are behind this one
      | .error error => (.error ⟨"SSH agent authentication failed: " ++ error⟩, [offer])
      | .ok result =>
          if result.succeeded then (.ok result, [offer])
          else
            let (rest, offers) := offerIdentities (n + 1) identities
            (rest, offer :: offers)

/-- `authenticate_agent_with_client`. -/
def authenticateAgentWithClient :
    Except SshSessionError AuthResult × List (Offer Key Certificate Hash) :=
  match session.requestIdentities with
  | .error error => (.error ⟨"SSH agent identity lookup failed: " ++ error⟩, [])
  | .ok identities =>
      if identities.isEmpty then (.error ⟨"SSH agent has no identities"⟩, [])
      else
        match session.bestSupportedRsaHash with
        | .error error => (.error ⟨"SSH agent algorithm negotiation failed: " ++ error⟩, [])
        | .ok rsaHash => session.offerIdentities username rsaHash.join 0 identities

end AgentSession

/-! ## What is expected of it -/

/-- The outcome of one identity. -/
inductive IdentityOutcome where
  | accepted
  | refused
  | agentFailed
deriving DecidableEq, Repr

def IdentityOutcome.ofAnswer : Except String AuthResult → IdentityOutcome
  | .error _ => .agentFailed
  | .ok result => if result.succeeded then .accepted else .refused

namespace AgentSession

variable (session : AgentSession Key Certificate Hash) (username : String) (rsaHash : Option Hash)

/-- Every identity with its offer and its outcome, also those that are never tried. -/
def outcomes : Nat → List (AgentIdentity Key Certificate) →
    List (Offer Key Certificate Hash × IdentityOutcome)
  | _, [] => []
  | n, identity :: identities =>
      let offer := identity.offer username rsaHash
      (offer, .ofAnswer (session.authenticate n offer)) :: outcomes (n + 1) identities

end AgentSession

/-- The offers up to the first identity that is accepted, or all of them. -/
def offersUpToAccepted :
    List (Offer Key Certificate Hash × IdentityOutcome) → List (Offer Key Certificate Hash)
  | [] => []
  | (offer, .accepted) :: _ => [offer]
  | (offer, .refused) :: rest => offer :: offersUpToAccepted rest
  | (offer, .agentFailed) :: rest => offer :: offersUpToAccepted rest

/-- The identities are offered in their order, up to the first that is accepted, and the result is
a success exactly when one is. -/
structure TriesInOrder (outcomes : List (Offer Key Certificate Hash × IdentityOutcome))
    (tried : Except SshSessionError AuthResult × List (Offer Key Certificate Hash)) : Prop where
  offers : tried.2 = offersUpToAccepted outcomes
  success : tried.1.bind RusshAuthOutcome.fromAuthResult = .ok .authenticated ↔
    ∃ offer, (offer, .accepted) ∈ outcomes

/-- An identity for which the agent fails is the last one, or stands behind one that is
accepted. -/
def FailuresLast (outcomes : List (Offer Key Certificate Hash × IdentityOutcome)) : Prop :=
  ∀ before offer after, outcomes = before ++ (offer, .agentFailed) :: after →
    after = [] ∨ ∃ accepted, (accepted, .accepted) ∈ before

section Outcomes

variable {offer : Offer Key Certificate Hash}
  {rest : List (Offer Key Certificate Hash × IdentityOutcome)}

theorem failuresLast_accepted : FailuresLast ((offer, .accepted) :: rest) := by
  intro before failed after hsplit
  cases before with
  | nil => simp at hsplit
  | cons head before =>
      obtain ⟨rfl, -⟩ := List.cons.inj hsplit
      exact .inr ⟨offer, List.mem_cons_self⟩

/-- A refused identity is followed by the rest. -/
theorem failuresLast_refused :
    FailuresLast ((offer, .refused) :: rest) ↔ FailuresLast rest := by
  constructor
  · rintro h before failed after rfl
    rcases h ((offer, .refused) :: before) failed after rfl with hlast | ⟨accepted, hmem⟩
    · exact .inl hlast
    · exact .inr ⟨accepted, by simpa using hmem⟩
  · intro h before failed after hsplit
    cases before with
    | nil => simp at hsplit
    | cons head before =>
        obtain ⟨rfl, hrest⟩ := List.cons.inj hsplit
        rcases h before failed after hrest with hlast | ⟨accepted, hmem⟩
        · exact .inl hlast
        · exact .inr ⟨accepted, List.mem_cons_of_mem _ hmem⟩

/-- A failure is the last outcome exactly when nothing follows. -/
theorem failuresLast_agentFailed :
    FailuresLast ((offer, .agentFailed) :: rest) ↔ rest = [] := by
  constructor
  · intro h
    simpa using h [] offer rest rfl
  · rintro rfl before failed after hsplit
    cases before with
    | nil => exact .inl (List.cons.inj hsplit).2.symm
    | cons head before => simp at hsplit

theorem offersUpToAccepted_eq_nil_iff
    {outcomes : List (Offer Key Certificate Hash × IdentityOutcome)} :
    offersUpToAccepted outcomes = [] ↔ outcomes = [] := by
  rcases outcomes with _ | ⟨⟨offer, outcome⟩, rest⟩
  · simp [offersUpToAccepted]
  · cases outcome <;> simp [offersUpToAccepted]

end Outcomes

/-- The loop does what is expected of it exactly when the failures come last. -/
theorem AgentSession.offerIdentities_triesInOrder_iff (session : AgentSession Key Certificate Hash)
    (username : String) (rsaHash : Option Hash) (n : Nat)
    (identities : List (AgentIdentity Key Certificate)) :
    TriesInOrder (session.outcomes username rsaHash n identities)
        (session.offerIdentities username rsaHash n identities) ↔
      FailuresLast (session.outcomes username rsaHash n identities) := by
  induction identities generalizing n with
  | nil =>
      refine iff_of_true ⟨rfl, ?_⟩ ?_
      · simp [offerIdentities, outcomes, Except.bind, RusshAuthOutcome.fromAuthResult,
          AuthResult.succeeded]
      · intro before offer after hsplit
        simp [outcomes] at hsplit
  | cons identity identities ih =>
      cases hanswer : session.authenticate n (identity.offer username rsaHash) with
      | error error =>
          -- the loop ends here, so this must have been the last identity
          have houtcome : IdentityOutcome.ofAnswer (.error error) = .agentFailed := rfl
          simp only [outcomes, offerIdentities, hanswer, houtcome]
          rw [failuresLast_agentFailed]
          constructor
          · intro h
            exact offersUpToAccepted_eq_nil_iff.mp (by simpa [offersUpToAccepted] using h.offers)
          · intro hnil
            rw [hnil]
            exact ⟨rfl, by simp [Except.bind]⟩
      | ok result =>
          cases hresult : result.succeeded with
          | true =>
              have houtcome : IdentityOutcome.ofAnswer (.ok result) = .accepted := by
                simp [IdentityOutcome.ofAnswer, hresult]
              simp only [outcomes, offerIdentities, hanswer, hresult, houtcome, if_true]
              refine iff_of_true ⟨rfl, iff_of_true ?_ ?_⟩ failuresLast_accepted
              · simp [Except.bind, RusshAuthOutcome.fromAuthResult, hresult]
              · exact ⟨_, List.mem_cons_self⟩
          | false =>
              have houtcome : IdentityOutcome.ofAnswer (.ok result) = .refused := by
                simp [IdentityOutcome.ofAnswer, hresult]
              -- a refused identity changes neither side
              simp only [outcomes, offerIdentities, hanswer, hresult, houtcome]
              rw [failuresLast_refused, ← ih]
              constructor
              · intro h
                exact ⟨by simpa [offersUpToAccepted] using h.offers, by simpa using h.success⟩
              · intro h
                exact ⟨by simpa [offersUpToAccepted] using h.offers, by simpa using h.success⟩

/-- For every list of identities and every outcome of each: they are offered in order up to the
first that is accepted, with success exactly when there is one, if and only if every identity for
which the agent fails is the last one or stands behind one that is accepted. -/
theorem agent_tries_in_order_iff (session : AgentSession Key Certificate Hash) (username : String)
    {identities : List (AgentIdentity Key Certificate)} {rsaHash : Option (Option Hash)}
    (hidentities : session.requestIdentities = .ok identities) (hne : identities ≠ [])
    (hhash : session.bestSupportedRsaHash = .ok rsaHash) :
    TriesInOrder (session.outcomes username rsaHash.join 0 identities)
        (session.authenticateAgentWithClient username) ↔
      FailuresLast (session.outcomes username rsaHash.join 0 identities) := by
  have hloop : session.authenticateAgentWithClient username =
      session.offerIdentities username rsaHash.join 0 identities := by
    simp [AgentSession.authenticateAgentWithClient, hidentities, hhash, hne]
  rw [hloop]
  exact session.offerIdentities_triesInOrder_iff username rsaHash.join 0 identities

/-- A key that the agent declines to sign for and a certificate that the server would accept. -/
def decliningAgent : AgentSession String String String where
  requestIdentities := .ok [.publicKey "hardware", .certificate "login"]
  bestSupportedRsaHash := .ok none
  authenticate
    | 0, _ => .error "agent refused operation"
    | _, _ => .ok .success

/-- The certificate is never offered. -/
theorem decliningAgent_gives_up :
    decliningAgent.authenticateAgentWithClient "user" =
        (.error ⟨"SSH agent authentication failed: agent refused operation"⟩,
          [.publicKey "user" "hardware" none]) ∧
      decliningAgent.outcomes "user" none 0 [.publicKey "hardware", .certificate "login"] =
        [(.publicKey "user" "hardware" none, .agentFailed),
          (.certificate "user" "login" none, .accepted)] ∧
      ¬ TriesInOrder
        (decliningAgent.outcomes "user" none 0 [.publicKey "hardware", .certificate "login"])
        (decliningAgent.authenticateAgentWithClient "user") := by
  refine ⟨rfl, rfl, ?_⟩
  intro h
  have hoffers := h.offers
  cases hoffers

/-- A refused key before the certificate, and an agent that fails for a key behind it. -/
def refusedFirst : AgentSession String String String where
  requestIdentities := .ok [.publicKey "old", .certificate "login", .publicKey "hardware"]
  bestSupportedRsaHash := .ok (some (some "sha2-512"))
  authenticate
    | 0, _ => .ok (.failure ["publickey"] false)
    | 1, _ => .ok .success
    | _, _ => .error "agent refused operation"

/-- The run in which the first identity is refused. -/
theorem refusedFirst_triesInOrder :
    TriesInOrder
      (refusedFirst.outcomes "user" (some "sha2-512") 0
        [.publicKey "old", .certificate "login", .publicKey "hardware"])
      (refusedFirst.authenticateAgentWithClient "user") := by
  refine (agent_tries_in_order_iff refusedFirst "user" rfl (by simp) rfl).mpr ?_
  exact failuresLast_refused.mpr failuresLast_accepted

end Rssh
