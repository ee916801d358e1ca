import Mathlib.Data.List.Induction
import Mathlib.Data.List.Nodup
import Rssh.HostKey.Policy

/-!
# Trust on first use

Handlers with the `TrustOnFirstUse` policy share one known-hosts file and run one
after another. A call of `check_server_key` reads the file twice and, when neither
reader finds the endpoint, appends a record that later calls read back.

`first_use_pins_first_key` says that an endpoint without entries is pinned to the key
of its first call, and that the file grows by exactly one line per newly trusted
endpoint. The invariant `FirstUseInv` ties the file to the list of trusted calls.
-/

namespace Rssh

variable {Key : Type}

/-! ## Sequential calls -/

/-- One connection attempt by a trust-on-first-use handler. The verifier is
configured but never asked. -/
structure FirstUseCall (Key : Type) where
  host : String
  port : UInt16
  key : Key
  verifier : Option (HostKeyChallenge → HostKeyDecision) := none

namespace FirstUseCall

def endpoint (call : FirstUseCall Key) : String × UInt16 := (call.host, call.port)

/-- `check_server_key` on the shared file, with every file operation succeeding. -/
def check (russh : RusshKeys Key) (path : String) (disk : Disk) (call : FirstUseCall Key) :
    HostKeyCheck :=
  checkServerKey russh {}
    (handlerForHost .trustOnFirstUse (some path) call.verifier call.host call.port) disk call.key

/-- The line that records the call's key. -/
def record (russh : RusshKeys Key) (call : FirstUseCall Key) : String :=
  match russh.toOpenssh call.key with
  | .ok openssh => Rssh.record call.host call.port openssh
  | .error _ => ""

/-- The text holds the call's key for the call's endpoint. -/
def Known [DecidableEq Key] (russh : RusshKeys Key)
    (lineKey : String → UInt16 → List Char → Option (Except String Key)) (text : String)
    (call : FirstUseCall Key) : Prop :=
  verdict russh.algorithm call.key (entries lineKey text call.host call.port) = .ok true

/-- Neither reader of the text finds the call's endpoint. -/
def Fresh [DecidableEq Key] (russh : RusshKeys Key)
    (lineKey : String → UInt16 → List Char → Option (Except String Key)) (text : String)
    (call : FirstUseCall Key) : Prop :=
  verdict russh.algorithm call.key (entries lineKey text call.host call.port) = .ok false ∧
    knownHostsContainsEndpoint (some text.toUTF8) call.host call.port = false

end FirstUseCall

/-- Calls run one after another: their answers, and the files afterwards. -/
def checkAll (russh : RusshKeys Key) (path : String) :
    Disk → List (FirstUseCall Key) → List (Except KeysError Bool) × Disk
  | disk, [] => ([], disk)
  | disk, call :: calls =>
      let check := call.check russh path disk
      let rest := checkAll russh path check.disk calls
      (check.answer :: rest.1, rest.2)

theorem length_checkAll (russh : RusshKeys Key) (path : String) (disk : Disk)
    (calls : List (FirstUseCall Key)) :
    (checkAll russh path disk calls).1.length = calls.length := by
  induction calls generalizing disk with
  | nil => rfl
  | cons call calls ih => simp [checkAll, ih]

/-- A text extended by one line for each of the given calls. -/
def withRecords (russh : RusshKeys Key) (text : String) (trusted : List (FirstUseCall Key)) :
    String :=
  text ++ String.ofList (Text.separator text.toList) ++
    String.join (trusted.map fun call => call.record russh ++ "\n")

/-! ## One call -/

section Call

variable [DecidableEq Key] {russh : RusshKeys Key}
  {lineKey : String → UInt16 → List Char → Option (Except String Key)}
  {disk : Disk} {path : String} {content : Option String}

/-- An absent file reads like an empty one. -/
theorem checkKnownHostsPath_content (hreads : ReadsKnownHosts russh lineKey)
    (content : Option String) (host : String) (port : UInt16) (key : Key) :
    russh.checkKnownHostsPath (content.map String.toUTF8) host port key =
      verdict russh.algorithm key (entries lineKey (content.getD "") host port) := by
  cases content with
  | none => exact hreads.missing host port key
  | some text => exact hreads.text text host port key

theorem knownHostsContainsEndpoint_content (content : Option String) (host : String)
    (port : UInt16) :
    knownHostsContainsEndpoint (content.map String.toUTF8) host port =
      knownHostsContainsEndpoint (some (content.getD "").toUTF8) host port := by
  cases content with
  | none =>
      rw [Option.getD_none, knownHostsContainsEndpoint_text]
      rfl
  | some text => rfl

/-- The call's record is the line `learn` writes. -/
theorem toOpenssh_record (hreads : ReadsRecords russh lineKey) (call : FirstUseCall Key) :
    ∃ openssh, russh.toOpenssh call.key = .ok openssh ∧
      call.record russh = record call.host call.port openssh := by
  rcases hreads.encodes call.key with ⟨base64, hopenssh, -⟩
  exact ⟨_, hopenssh, by simp [FirstUseCall.record, hopenssh]⟩

/-- What one call can do: find the key known, learn it, or reject it. -/
theorem check_cases (hreads : ReadsRecords russh lineKey)
    (hcontent : disk path = content.map String.toUTF8) (call : FirstUseCall Key) :
    (call.Known russh lineKey (content.getD "") ∧
      (call.check russh path disk).answer = .ok true ∧ (call.check russh path disk).disk = disk) ∨
    (call.Fresh russh lineKey (content.getD "") ∧
      (call.check russh path disk).answer = .ok true ∧
      (call.check russh path disk).disk =
        disk.write path (withRecord (content.getD "") (call.record russh)).toUTF8) ∨
    (¬ call.Known russh lineKey (content.getD "") ∧ ¬ call.Fresh russh lineKey (content.getD "") ∧
      (call.check russh path disk).answer = .ok false ∧
      (call.check russh path disk).disk = disk) := by
  have hknown : hostKeyStatus russh (some path) disk call.host call.port call.key = some .known ↔
      call.Known russh lineKey (content.getD "") := by
    rw [hostKeyStatus_eq_known_iff, hcontent,
      checkKnownHostsPath_content hreads.toReadsKnownHosts, FirstUseCall.Known]
  have hfresh : hostKeyStatus russh (some path) disk call.host call.port call.key =
      some .unknown ↔ call.Fresh russh lineKey (content.getD "") := by
    rw [hostKeyStatus_eq_unknown_iff, hcontent,
      checkKnownHostsPath_content hreads.toReadsKnownHosts, knownHostsContainsEndpoint_content,
      FirstUseCall.Fresh]
  -- in these terms, the answer follows the status of the key
  rw [← hknown, ← hfresh]
  unfold FirstUseCall.check
  cases hstatus : hostKeyStatus russh (some path) disk call.host call.port call.key with
  | none => simp [checkServerKey, handlerForHost, hstatus]
  | some status =>
      cases status with
      | known => simp [checkServerKey, handlerForHost, hstatus]
      | changed => simp [checkServerKey, handlerForHost, hstatus]
      | unknown =>
          rcases toOpenssh_record hreads call with ⟨openssh, hopenssh, hrecord⟩
          simp [checkServerKey, handlerForHost, hstatus, decideUnknown, learnAndAccept,
            learn_eq hcontent hopenssh, hrecord]

/-- A fresh call is accepted and recorded. -/
theorem check_of_fresh (hreads : ReadsRecords russh lineKey)
    (hcontent : disk path = content.map String.toUTF8) {call : FirstUseCall Key}
    (hfresh : call.Fresh russh lineKey (content.getD "")) :
    (call.check russh path disk).answer = .ok true ∧
      (call.check russh path disk).disk =
        disk.write path (withRecord (content.getD "") (call.record russh)).toUTF8 := by
  rcases check_cases hreads hcontent call with ⟨hknown, -⟩ | ⟨-, hlearned⟩ | ⟨-, hnot, -⟩
  · simpa using hknown.symm.trans hfresh.1
  · exact hlearned
  · exact absurd hfresh hnot

end Call

/-! ## The file after some records -/

/-- The content of the file after the given calls were trusted. -/
def recorded (russh : RusshKeys Key) (content : Option String)
    (trusted : List (FirstUseCall Key)) : Option String :=
  if trusted = [] then content else some (withRecords russh (content.getD "") trusted)

section Recorded

variable {russh : RusshKeys Key} {content : Option String} {trusted : List (FirstUseCall Key)}

/-- A text that ends in records ends in a newline. -/
theorem separator_withRecords (text : String) (hne : trusted ≠ []) :
    Text.separator (withRecords russh text trusted).toList = [] := by
  rcases (List.eq_nil_or_concat trusted).resolve_left hne with ⟨init, last, rfl⟩
  simp [withRecords, Text.separator]

/-- One more trusted call is one more record. -/
theorem recorded_concat (russh : RusshKeys Key) (content : Option String)
    (trusted : List (FirstUseCall Key)) (call : FirstUseCall Key) :
    recorded russh content (trusted ++ [call]) =
      some (withRecord ((recorded russh content trusted).getD "") (call.record russh)) := by
  simp only [recorded, List.append_eq_nil_iff, List.cons_ne_self, and_false, if_false,
    Option.some.injEq]
  rw [← String.toList_inj]
  by_cases hne : trusted = []
  · simp [hne, withRecords, withRecord, Text.appendLine]
  · rw [if_neg hne, Option.getD_some, withRecord, String.toList_ofList, Text.appendLine,
      separator_withRecords _ hne]
    simp [withRecords]

variable [DecidableEq Key] {lineKey : String → UInt16 → List Char → Option (Except String Key)}
  {host : String} {port : UInt16}

/-- russh finds the old entries and the keys of the trusted calls. -/
theorem entries_recorded (hreads : ReadsRecords russh lineKey) (hhost : PlainHost host)
    (htrusted : ∀ call ∈ trusted, PlainHost call.host) :
    entries lineKey ((recorded russh content trusted).getD "") host port =
      entries lineKey (content.getD "") host port ++
        (trusted.filter (·.endpoint = (host, port))).map (.ok ·.key) := by
  induction trusted using List.reverseRecOn with
  | nil => simp [recorded]
  | append_singleton trusted call ih =>
      have hcall : PlainHost call.host := htrusted call (by simp)
      rcases toOpenssh_record hreads call with ⟨openssh, hopenssh, hrecord⟩
      rw [recorded_concat, Option.getD_some, hrecord,
        entries_withRecord hreads hhost hcall hopenssh,
        ih fun c hc => htrusted c (List.mem_append_left _ hc)]
      by_cases hep : host = call.host ∧ port = call.port
      · have : call.endpoint = (host, port) := by simp [FirstUseCall.endpoint, hep]
        simp [hep, this, List.filter_append]
      · have : call.endpoint ≠ (host, port) := by
          simpa [FirstUseCall.endpoint, eq_comm] using hep
        simp [hep, this, List.filter_append]

/-- The scan finds the old names and the endpoints of the trusted calls. -/
theorem knownHostsContainsEndpoint_recorded (hreads : ReadsRecords russh lineKey)
    (hhost : PlainHost host)
    (htrusted : ∀ call ∈ trusted, PlainHost call.host ∧ endpointName call.host call.port ≠ "") :
    knownHostsContainsEndpoint (some ((recorded russh content trusted).getD "").toUTF8)
        host port =
      (knownHostsContainsEndpoint (some (content.getD "").toUTF8) host port ||
        decide ((host, port) ∈ trusted.map FirstUseCall.endpoint)) := by
  induction trusted using List.reverseRecOn with
  | nil => simp [recorded]
  | append_singleton trusted call ih =>
      rcases htrusted call (by simp) with ⟨hcall, hname⟩
      rcases toOpenssh_record hreads call with ⟨openssh, hopenssh, hrecord⟩
      rw [recorded_concat, Option.getD_some, hrecord,
        knownHostsContainsEndpoint_withRecord hreads hhost hcall hname hopenssh,
        ih fun c hc => htrusted c (List.mem_append_left _ hc)]
      simp [FirstUseCall.endpoint, Bool.or_assoc]

end Recorded

/-! ## Runs of calls -/

/-- The first call of a longer run is the old first call, or the new call. -/
theorem find?_concat {answered : List (FirstUseCall Key × Except KeysError Bool)}
    {call : FirstUseCall Key} {answer : Except KeysError Bool} {host : String} {port : UInt16}
    {first : FirstUseCall Key}
    (h : ((answered ++ [(call, answer)]).map Prod.fst).find? (·.endpoint = (host, port)) =
      some first) :
    (answered.map Prod.fst).find? (·.endpoint = (host, port)) = some first ∨
      first = call ∧ call.endpoint = (host, port) ∧
        ∀ other ∈ answered.map Prod.fst, other.endpoint ≠ call.endpoint := by
  rw [List.map_append, List.find?_append, Option.or_eq_some_iff] at h
  rcases h with h | ⟨hnone, h⟩
  · exact .inl h
  · refine .inr ?_
    simp only [List.map_cons, List.map_nil, List.find?_singleton, decide_eq_true_eq] at h
    split at h
    · rename_i hep
      refine ⟨(Option.some.inj h).symm, hep, ?_⟩
      intro other hmem
      rw [hep]
      simpa using List.find?_eq_none.mp hnone other hmem
    · simp at h

/-- What holds after the calls in `answered` were answered, starting from the file
`content`: the file has one more line for each of the `trusted` calls. -/
structure FirstUseInv [DecidableEq Key] (russh : RusshKeys Key)
    (lineKey : String → UInt16 → List Char → Option (Except String Key)) (path : String)
    (initial : Disk) (content : Option String)
    (answered : List (FirstUseCall Key × Except KeysError Bool)) (disk : Disk)
    (trusted : List (FirstUseCall Key)) : Prop where
  disk_eq : disk = if trusted = [] then initial
    else initial.write path (withRecords russh (content.getD "") trusted).toUTF8
  plain : ∀ call ∈ trusted, PlainHost call.host ∧ endpointName call.host call.port ≠ ""
  nodup : (trusted.map FirstUseCall.endpoint).Nodup
  /-- Every accepted key was recorded from the start or is the key of a trusted call. -/
  accepted : ∀ pair ∈ answered, pair.2 = .ok true →
    .ok pair.1.key ∈ entries lineKey (content.getD "") pair.1.host pair.1.port ∨
      ∃ call ∈ trusted, call.endpoint = pair.1.endpoint ∧ call.key = pair.1.key
  /-- Every trusted call was accepted, with a key that was not there before. -/
  fresh : ∀ call ∈ trusted, (call, .ok true) ∈ answered ∧
    .ok call.key ∉ entries lineKey (content.getD "") call.host call.port ∧
    knownHostsContainsEndpoint (some (content.getD "").toUTF8) call.host call.port = false
  /-- The first call for an endpoint that neither reader knew was trusted. -/
  first : ∀ host port, entries lineKey (content.getD "") host port = [] →
    knownHostsContainsEndpoint (some (content.getD "").toUTF8) host port = false →
    ∀ call, (answered.map Prod.fst).find? (·.endpoint = (host, port)) = some call →
      call ∈ trusted

section Run

variable [DecidableEq Key] {russh : RusshKeys Key}
  {lineKey : String → UInt16 → List Char → Option (Except String Key)} {path : String}
  {initial disk : Disk} {content : Option String}
  {answered : List (FirstUseCall Key × Except KeysError Bool)}
  {trusted : List (FirstUseCall Key)} {call : FirstUseCall Key}

theorem FirstUseInv.disk_path
    (hinv : FirstUseInv russh lineKey path initial content answered disk trusted)
    (hcontent : initial path = content.map String.toUTF8) :
    disk path = (recorded russh content trusted).map String.toUTF8 := by
  rw [hinv.disk_eq, recorded]
  split
  · exact hcontent
  · simp

/-- A first call for an endpoint that neither reader knew is fresh. -/
theorem FirstUseInv.call_fresh (hreads : ReadsRecords russh lineKey)
    (hinv : FirstUseInv russh lineKey path initial content answered disk trusted)
    (hhost : PlainHost call.host)
    (hentries : entries lineKey (content.getD "") call.host call.port = [])
    (hscan : knownHostsContainsEndpoint (some (content.getD "").toUTF8) call.host call.port = false)
    (hnew : ∀ other ∈ answered.map Prod.fst, other.endpoint ≠ call.endpoint) :
    call.Fresh russh lineKey ((recorded russh content trusted).getD "") := by
  have hother : ∀ other ∈ trusted, other.endpoint ≠ (call.host, call.port) := fun other hmem =>
    hnew other (List.mem_map.mpr ⟨_, (hinv.fresh other hmem).1, rfl⟩)
  have hnone : trusted.filter (·.endpoint = (call.host, call.port)) = [] := by
    simpa [List.filter_eq_nil_iff] using hother
  constructor
  · rw [entries_recorded hreads hhost fun c hc => (hinv.plain c hc).1, hentries, hnone]
    rfl
  · rw [knownHostsContainsEndpoint_recorded hreads hhost hinv.plain, hscan]
    simpa using hother

/-- A call that learns nothing keeps the invariant. -/
theorem FirstUseInv.unchanged (hreads : ReadsRecords russh lineKey) (hhost : PlainHost call.host)
    (hinv : FirstUseInv russh lineKey path initial content answered disk trusted)
    (hfresh : ¬ call.Fresh russh lineKey ((recorded russh content trusted).getD ""))
    {answer : Except KeysError Bool}
    (hanswer : answer = .ok true →
      call.Known russh lineKey ((recorded russh content trusted).getD "")) :
    FirstUseInv russh lineKey path initial content (answered ++ [(call, answer)]) disk trusted where
  disk_eq := hinv.disk_eq
  plain := hinv.plain
  nodup := hinv.nodup
  accepted := by
    intro pair hpair htrue
    rcases List.mem_append.mp hpair with hold | hnew
    · exact hinv.accepted pair hold htrue
    · obtain rfl := List.mem_singleton.mp hnew
      have hmem := mem_of_verdict_eq_ok_true (hanswer htrue)
      rw [entries_recorded hreads hhost fun c hc => (hinv.plain c hc).1, List.mem_append] at hmem
      refine hmem.imp_right ?_
      intro hmem
      rcases List.mem_map.mp hmem with ⟨other, hother, hkey⟩
      rcases List.mem_filter.mp hother with ⟨hother, hep⟩
      exact ⟨other, hother, of_decide_eq_true hep, Except.ok.inj hkey⟩
  fresh := fun c hc =>
    ⟨List.mem_append_left _ (hinv.fresh c hc).1, (hinv.fresh c hc).2⟩
  first := by
    intro host port hentries hscan first hfirst
    rcases find?_concat hfirst with hold | ⟨rfl, hep, hnew⟩
    · exact hinv.first host port hentries hscan first hold
    · rcases Prod.mk.inj hep with ⟨rfl, rfl⟩
      exact absurd (hinv.call_fresh hreads hhost hentries hscan hnew) hfresh

/-- A call that is learned extends the file by its record. -/
theorem FirstUseInv.learned (hreads : ReadsRecords russh lineKey)
    (hhost : PlainHost call.host) (hname : endpointName call.host call.port ≠ "")
    (hinv : FirstUseInv russh lineKey path initial content answered disk trusted)
    (hfresh : call.Fresh russh lineKey ((recorded russh content trusted).getD "")) :
    FirstUseInv russh lineKey path initial content (answered ++ [(call, .ok true)])
      (disk.write path
        (withRecord ((recorded russh content trusted).getD "") (call.record russh)).toUTF8)
      (trusted ++ [call]) := by
  -- what the two readers saw, in terms of the old file and the trusted calls
  rcases hfresh with ⟨hverdict, hscan⟩
  rw [entries_recorded hreads hhost fun c hc => (hinv.plain c hc).1] at hverdict
  rw [knownHostsContainsEndpoint_recorded hreads hhost hinv.plain, Bool.or_eq_false_iff,
    decide_eq_false_iff_not] at hscan
  refine ⟨?_, ?_, ?_, ?_, ?_, ?_⟩
  · have hnext : withRecords russh (content.getD "") (trusted ++ [call]) =
        withRecord ((recorded russh content trusted).getD "") (call.record russh) := by
      simpa [recorded] using recorded_concat russh content trusted call
    rw [if_neg (by simp), hnext, hinv.disk_eq]
    split <;> simp
  · intro c hc
    rcases List.mem_append.mp hc with hold | hnew
    · exact hinv.plain c hold
    · obtain rfl := List.mem_singleton.mp hnew
      exact ⟨hhost, hname⟩
  · rw [List.map_append, List.nodup_append]
    refine ⟨hinv.nodup, by simp, ?_⟩
    intro ep hep ep' hep'
    -- the scan would have found a trusted call for the same endpoint
    obtain rfl : ep' = call.endpoint := by simpa using hep'
    exact fun heq => hscan.2 (show call.endpoint ∈ _ from heq ▸ hep)
  · intro pair hpair htrue
    rcases List.mem_append.mp hpair with hold | hnew
    · refine (hinv.accepted pair hold htrue).imp_right ?_
      rintro ⟨c, hc, hep, hkey⟩
      exact ⟨c, List.mem_append_left _ hc, hep, hkey⟩
    · obtain rfl := List.mem_singleton.mp hnew
      exact .inr ⟨call, by simp, rfl, rfl⟩
  · intro c hc
    rcases List.mem_append.mp hc with hold | hnew
    · exact ⟨List.mem_append_left _ (hinv.fresh c hold).1, (hinv.fresh c hold).2⟩
    · obtain rfl := List.mem_singleton.mp hnew
      refine ⟨by simp, ?_, hscan.1⟩
      -- an old entry with this key would have been of its algorithm
      intro hmem
      rcases verdict_eq_ok_false_iff.mp hverdict _ (List.mem_append_left _ hmem) with ⟨k, hk, hne⟩
      exact hne (Except.ok.inj hk ▸ rfl)
  · intro host port hentries hscan first hfirst
    rcases find?_concat hfirst with hold | ⟨rfl, hep, hnew⟩
    · exact List.mem_append_left _ (hinv.first host port hentries hscan first hold)
    · simp

/-- One call keeps the invariant, with one more trusted call at most. -/
theorem firstUse_step_inv (hreads : ReadsRecords russh lineKey)
    (hcontent : initial path = content.map String.toUTF8) (hhost : PlainHost call.host)
    (hname : endpointName call.host call.port ≠ "")
    (hinv : FirstUseInv russh lineKey path initial content answered disk trusted) :
    ∃ trusted', FirstUseInv russh lineKey path initial content
      (answered ++ [(call, (call.check russh path disk).answer)])
      (call.check russh path disk).disk trusted' := by
  rcases check_cases hreads (hinv.disk_path hcontent) call with
    ⟨hknown, hanswer, hdisk⟩ | ⟨hfresh, hanswer, hdisk⟩ | ⟨hknown, hfresh, hanswer, hdisk⟩
  · -- the key is known: nothing changes
    refine ⟨trusted, ?_⟩
    rw [hanswer, hdisk]
    refine hinv.unchanged hreads hhost ?_ fun _ => hknown
    intro hfresh
    simpa using hknown.symm.trans hfresh.1
  · -- the key is learned
    refine ⟨trusted ++ [call], ?_⟩
    rw [hanswer, hdisk]
    exact hinv.learned hreads hhost hname hfresh
  · -- the key is rejected
    refine ⟨trusted, ?_⟩
    rw [hanswer, hdisk]
    exact hinv.unchanged hreads hhost hfresh fun h => absurd h (by simp)

/-- A run of calls keeps the invariant. -/
theorem checkAll_inv (hreads : ReadsRecords russh lineKey)
    (hcontent : initial path = content.map String.toUTF8) (calls : List (FirstUseCall Key))
    (hplain : ∀ call ∈ calls, PlainHost call.host ∧ endpointName call.host call.port ≠ "")
    (hinv : FirstUseInv russh lineKey path initial content answered disk trusted) :
    ∃ trusted', FirstUseInv russh lineKey path initial content
      (answered ++ calls.zip (checkAll russh path disk calls).1)
      (checkAll russh path disk calls).2 trusted' := by
  induction calls generalizing answered disk trusted with
  | nil => exact ⟨trusted, by simpa [checkAll] using hinv⟩
  | cons call calls ih =>
      rcases hplain call (by simp) with ⟨hhost, hname⟩
      rcases firstUse_step_inv hreads hcontent hhost hname hinv with ⟨trusted', hstep⟩
      rcases ih (fun c hc => hplain c (List.mem_cons_of_mem _ hc)) hstep with ⟨trusted'', hrest⟩
      refine ⟨trusted'', ?_⟩
      simpa [checkAll] using hrest

theorem init_inv : FirstUseInv russh lineKey path initial content [] initial [] where
  disk_eq := by simp
  plain := by simp
  nodup := by simp
  accepted := by simp
  fresh := by simp
  first := by simp

/-- Every accepted key for an endpoint without entries is the key of its first call. -/
theorem FirstUseInv.pinned
    (hinv : FirstUseInv russh lineKey path initial content answered disk trusted)
    {host : String} {port : UInt16}
    (hentries : entries lineKey (content.getD "") host port = [])
    {pair : FirstUseCall Key × Except KeysError Bool} (hpair : pair ∈ answered)
    (hep : pair.1.endpoint = (host, port)) (htrue : pair.2 = .ok true) :
    ∃ first, (answered.map Prod.fst).find? (·.endpoint = (host, port)) = some first ∧
      pair.1.key = first.key := by
  rcases Prod.mk.inj hep with ⟨hpairHost, hpairPort⟩
  have haccepted := hinv.accepted pair hpair htrue
  rw [hpairHost, hpairPort, hentries] at haccepted
  rcases haccepted.resolve_left List.not_mem_nil with ⟨call, hcall, hcallEp, hkey⟩
  have hcallEp : call.endpoint = (host, port) := hcallEp.trans hep
  have hscan := (hinv.fresh call hcall).2.2
  rcases Prod.mk.inj hcallEp with ⟨hcallHost, hcallPort⟩
  rw [hcallHost, hcallPort] at hscan
  -- the endpoint was called, so there is a first call, and it was trusted
  have hsome : ((answered.map Prod.fst).find? (·.endpoint = (host, port))).isSome := by
    rw [List.find?_isSome]
    exact ⟨pair.1, List.mem_map_of_mem hpair, decide_eq_true hep⟩
  rcases Option.isSome_iff_exists.mp hsome with ⟨first, hfirst⟩
  have hmem := hinv.first host port hentries hscan first hfirst
  have hfirstEp : first.endpoint = (host, port) := by
    simpa using List.find?_some hfirst
  -- an endpoint is trusted only once
  have heq : call = first :=
    List.inj_on_of_nodup_map hinv.nodup hcall hmem (hcallEp.trans hfirstEp.symm)
  exact ⟨first, hfirst, by rw [← hkey, heq]⟩

/-- The trusted endpoints are those for which a new key was accepted. -/
theorem FirstUseInv.mem_trusted_iff
    (hinv : FirstUseInv russh lineKey path initial content answered disk trusted)
    (endpoint : String × UInt16) :
    endpoint ∈ trusted.map FirstUseCall.endpoint ↔
      ∃ pair ∈ answered, pair.1.endpoint = endpoint ∧ pair.2 = .ok true ∧
        .ok pair.1.key ∉ entries lineKey (content.getD "") endpoint.1 endpoint.2 := by
  constructor
  · intro hmem
    rcases List.mem_map.mp hmem with ⟨call, hcall, rfl⟩
    rcases hinv.fresh call hcall with ⟨hanswered, hnew, -⟩
    exact ⟨(call, .ok true), hanswered, rfl, rfl, hnew⟩
  · rintro ⟨pair, hpair, rfl, htrue, hnew⟩
    rcases (hinv.accepted pair hpair htrue).resolve_left hnew with ⟨call, hcall, hep, -⟩
    exact List.mem_map.mpr ⟨call, hcall, hep⟩

/-- Sequential trust on first use: an endpoint without entries is pinned to the key of
its first call; and the file is extended by one line for each endpoint for which a key
was accepted that the file did not hold before, and otherwise untouched. -/
theorem first_use_pins_first_key (hreads : ReadsRecords russh lineKey) (content : Option String)
    (hcontent : initial path = content.map String.toUTF8) (calls : List (FirstUseCall Key))
    (hplain : ∀ call ∈ calls, PlainHost call.host)
    (hname : ∀ call ∈ calls, endpointName call.host call.port ≠ "") :
    (∀ host port, entries lineKey (content.getD "") host port = [] →
      ∀ pair ∈ calls.zip (checkAll russh path initial calls).1,
        pair.1.endpoint = (host, port) → pair.2 = .ok true →
        ∃ first, calls.find? (·.endpoint = (host, port)) = some first ∧
          pair.1.key = first.key) ∧
    ∃ trusted : List (FirstUseCall Key),
      (trusted.map FirstUseCall.endpoint).Nodup ∧
      (∀ call ∈ trusted, (call, .ok true) ∈ calls.zip (checkAll russh path initial calls).1) ∧
      (∀ endpoint, endpoint ∈ trusted.map FirstUseCall.endpoint ↔
        ∃ pair ∈ calls.zip (checkAll russh path initial calls).1,
          pair.1.endpoint = endpoint ∧ pair.2 = .ok true ∧
          .ok pair.1.key ∉ entries lineKey (content.getD "") endpoint.1 endpoint.2) ∧
      (checkAll russh path initial calls).2 =
        if trusted = [] then initial
        else initial.write path (withRecords russh (content.getD "") trusted).toUTF8 := by
  obtain ⟨trusted, hinv⟩ := checkAll_inv hreads hcontent calls
    (fun call hcall => ⟨hplain call hcall, hname call hcall⟩) init_inv
  rw [List.nil_append] at hinv
  have hcalls : (calls.zip (checkAll russh path initial calls).1).map Prod.fst = calls :=
    List.map_fst_zip (Nat.le_of_eq (length_checkAll russh path initial calls).symm)
  refine ⟨?_, trusted, hinv.nodup, fun call hcall => (hinv.fresh call hcall).1,
    hinv.mem_trusted_iff, hinv.disk_eq⟩
  intro host port hentries pair hpair hep htrue
  have hpinned := hinv.pinned hentries hpair hep htrue
  rwa [hcalls] at hpinned

end Run

/-- The scan does not find the record of the empty host on port 22. -/
theorem emptyHost_not_found (key : SampleKey) :
    knownHostsContainsEndpoint (some (withRecord "" (record "" 22 key.openssh)).toUTF8) "" 22 =
      false := by
  have hnewline : '\n' ∉ (record "" 22 key.openssh).toList :=
    newline_not_mem_record SampleKey.readsRecords (by decide) rfl
  have htoken : Text.firstToken (record "" 22 key.openssh).toList = some key.algorithm.toList := by
    have hrecord : (record "" 22 key.openssh).toList =
        ' ' :: (key.algorithm.toList ++ ' ' :: key.base64.toList) := by
      simp [record, endpointName, SampleKey.openssh]
    have hskip : ∀ line, Text.firstToken (' ' :: line) = Text.firstToken line := fun _ => rfl
    rw [hrecord, hskip]
    refine Text.firstToken_append_cons (by cases key <;> decide) ?_ (by decide)
    intro c hc
    simpa using List.all_eq_true.mp (SampleKey.algorithm_plain key) c hc
  rw [knownHostsContainsEndpoint_text, withRecord, String.toList_ofList,
    Text.rawLines_appendLine _ hnewline, List.filterMap_append]
  have hempty : (Text.rawLines "".toList).filterMap Text.firstToken = [] := rfl
  rw [hempty]
  simp only [List.filterMap_cons, htoken, List.filterMap_nil, List.nil_append, List.any_cons,
    List.any_nil, Bool.or_false]
  cases key <;> decide

/-- No file exists. -/
def noFiles : Disk := fun _ => none

/-- A call for the empty host on port 22. -/
def emptyHostCall (key : SampleKey) : FirstUseCall SampleKey :=
  { host := "", port := 22, key }

theorem emptyHostCall_fresh :
    (emptyHostCall .ecdsa).Fresh SampleKey.russh SampleKey.lineKey
      (withRecord "" ((emptyHostCall .ed25519).record SampleKey.russh)) := by
  have hentries : entries SampleKey.lineKey
      (withRecord "" (record "" 22 SampleKey.ed25519.openssh)) "" 22 = [.ok .ed25519] := by
    rw [entries_withRecord SampleKey.readsRecords (by decide) (by decide)
      (rfl : SampleKey.russh.toOpenssh .ed25519 = _)]
    rfl
  refine ⟨?_, emptyHost_not_found .ed25519⟩
  change verdict _ _ (entries SampleKey.lineKey
    (withRecord "" (record "" 22 SampleKey.ed25519.openssh)) "" 22) = _
  rw [hentries]
  decide

/-- The record of the empty host on port 22 starts with a blank, so its first token is
the algorithm: the scan never finds it, and a key of each algorithm is trusted. -/
theorem empty_host_accepts_two_keys :
    ReadsRecords SampleKey.russh SampleKey.lineKey ∧ PlainHost "" ∧
      entries SampleKey.lineKey "" "" 22 = [] ∧
      (checkAll SampleKey.russh "known_hosts" noFiles
        [emptyHostCall .ed25519, emptyHostCall .ecdsa]).1 = [.ok true, .ok true] ∧
      (emptyHostCall .ed25519).key ≠ (emptyHostCall .ecdsa).key := by
  refine ⟨SampleKey.readsRecords, by decide, rfl, ?_, by decide⟩
  have hnone : noFiles "known_hosts" = (none : Option String).map String.toUTF8 := rfl
  have hfirst : (emptyHostCall .ed25519).Fresh SampleKey.russh SampleKey.lineKey
      ((none : Option String).getD "") := ⟨rfl, rfl⟩
  rcases check_of_fresh SampleKey.readsRecords hnone hfirst with ⟨hanswer, hdisk⟩
  have hsome : ((emptyHostCall .ed25519).check SampleKey.russh "known_hosts"
      noFiles).disk "known_hosts" =
      (some (withRecord "" ((emptyHostCall .ed25519).record SampleKey.russh))).map
        String.toUTF8 := by
    rw [hdisk, Disk.write_self]
    rfl
  rcases check_of_fresh SampleKey.readsRecords hsome emptyHostCall_fresh with ⟨hanswer', -⟩
  simp only [checkAll, hanswer, hanswer']

/-- Three calls for one endpoint, with keys of two algorithms. -/
def exampleCalls : List (FirstUseCall SampleKey) :=
  [{ host := "ssh.example.com", port := 2222, key := .ed25519 },
    { host := "ssh.example.com", port := 2222, key := .ecdsa },
    { host := "ssh.example.com", port := 2222, key := .ed25519 }]

/-- Starting without a file, only the first key is ever accepted. -/
theorem exampleCalls_pinned :
    entries SampleKey.lineKey "" "ssh.example.com" 2222 = [] ∧
      ∀ pair ∈ exampleCalls.zip
          (checkAll SampleKey.russh "known_hosts" noFiles exampleCalls).1,
        pair.1.endpoint = ("ssh.example.com", 2222) → pair.2 = .ok true →
        pair.1.key = .ed25519 := by
  refine ⟨rfl, ?_⟩
  intro pair hpair hep htrue
  obtain ⟨first, hfirst, hkey⟩ :=
    (first_use_pins_first_key SampleKey.readsRecords none rfl exampleCalls (by decide)
      (by decide)).1 "ssh.example.com" 2222 rfl pair hpair hep htrue
  have hhead : exampleCalls.find? (·.endpoint = ("ssh.example.com", 2222)) =
      exampleCalls.head? := rfl
  rw [hkey, ← Option.some.inj (hhead.symm.trans hfirst)]

end Rssh
