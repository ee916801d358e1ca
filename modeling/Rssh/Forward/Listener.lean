import Rssh.Lib.Machine
import Rssh.Types

/-!
# The channels of a remote forward

The server opens a channel for every connection to the listener it was asked for, and the
client decides by the address and the port named in the open whether the channel is bridged to
the local target. The port to compare with may be the server's choice: it is then known only
after the reply to the request, and opens may arrive before.

* `remoteListener` is the machine of the startup and the opens, in any order.
* `ListenerInv` says what the shared port is at each stage of the startup.
* `only_bound_port_bridged` is the result about all runs.
-/

namespace Rssh

/-! ## Ports -/

/-- `u16::try_from`. -/
def u16TryFrom (n : UInt32) : Option UInt16 :=
  if n.toNat < 65536 then some n.toUInt16 else none

theorem u16TryFrom_eq_some_iff {n : UInt32} {port : UInt16} :
    u16TryFrom n = some port ↔ n.toNat = port.toNat := by
  have hport := port.toNat_lt
  unfold u16TryFrom
  split
  · rename_i hlt
    rw [Option.some.injEq, ← UInt16.toNat_inj, UInt32.toNat_toUInt16, Nat.mod_eq_of_lt hlt]
  · rename_i hge
    simp only [reduceCtorEq, false_iff]
    omega

def validatedRemoteForwardBoundPort (boundPort : UInt32) : Except SshSessionError UInt16 :=
  match u16TryFrom boundPort with
  | none => .error ⟨"SSH remote TCP forwarding returned invalid port " ++ toString boundPort⟩
  | some boundPortU16 =>
      if boundPortU16 = 0 then .error ⟨"SSH remote TCP forwarding returned invalid port 0"⟩
      else .ok boundPortU16

/-- A server may leave out the port it was asked for; any other answer is validated. -/
def resolvedRemoteForwardBoundPort (requestedPort : UInt16) (returnedPort : UInt32) :
    Except SshSessionError UInt16 :=
  if requestedPort = 0 then validatedRemoteForwardBoundPort returnedPort
  else if returnedPort = 0 ∨ returnedPort = requestedPort.toUInt32 then .ok requestedPort
  else validatedRemoteForwardBoundPort returnedPort

/-- A bound port is valid when it fits into 16 bits and is not zero. -/
theorem validatedRemoteForwardBoundPort_eq_ok_iff {boundPort : UInt32} {port : UInt16} :
    validatedRemoteForwardBoundPort boundPort = .ok port ↔
      boundPort.toNat = port.toNat ∧ port ≠ 0 := by
  unfold validatedRemoteForwardBoundPort
  rw [← u16TryFrom_eq_some_iff]
  cases u16TryFrom boundPort with
  | none => simp
  | some boundPortU16 =>
      by_cases hzero : boundPortU16 = 0
      · simp only [hzero, if_true, reduceCtorEq, Option.some.injEq, false_iff]
        rintro ⟨rfl, hne⟩
        exact hne rfl
      · simp only [hzero, if_false, Except.ok.injEq, Option.some.injEq]
        constructor
        · rintro rfl
          exact ⟨rfl, hzero⟩
        · exact And.left

/-- The port that is resolved is the returned one, untruncated, or the requested one when the
server returned none; it is never zero. -/
theorem resolvedRemoteForwardBoundPort_eq_ok {requestedPort : UInt16} {returnedPort : UInt32}
    {port : UInt16} (h : resolvedRemoteForwardBoundPort requestedPort returnedPort = .ok port) :
    port ≠ 0 ∧ (returnedPort.toNat = port.toNat ∨ returnedPort = 0 ∧ port = requestedPort) := by
  unfold resolvedRemoteForwardBoundPort at h
  split at h
  · obtain ⟨heq, hne⟩ := validatedRemoteForwardBoundPort_eq_ok_iff.mp h
    exact ⟨hne, .inl heq⟩
  · rename_i hrequested
    split at h
    · rename_i hreturned
      obtain rfl := Except.ok.inj h
      refine ⟨hrequested, ?_⟩
      rcases hreturned with hzero | hsame
      · exact .inr ⟨hzero, rfl⟩
      · exact .inl (by rw [hsame, UInt16.toNat_toUInt32])
    · obtain ⟨heq, hne⟩ := validatedRemoteForwardBoundPort_eq_ok_iff.mp h
      exact ⟨hne, .inl heq⟩

/-! ## The forward that channels are matched with -/

structure RusshRemoteTcpIpForwardPlan where
  bindHost : String
  bindPort : UInt16
  targetHost : String
  targetPort : UInt16
deriving DecidableEq, Repr

def RusshRemoteTcpIpForwardPlan.target (plan : RusshRemoteTcpIpForwardPlan) : String × UInt16 :=
  (plan.targetHost, plan.targetPort)

/-- The port is shared between the startup and the handler of the session. -/
structure ResolvedRemoteForward where
  plan : RusshRemoteTcpIpForwardPlan
  resolvedBindPort : UInt16
deriving DecidableEq, Repr

namespace ResolvedRemoteForward

def new (plan : RusshRemoteTcpIpForwardPlan) : ResolvedRemoteForward where
  plan := plan
  resolvedBindPort := plan.bindPort

def resolveBindPort (forward : ResolvedRemoteForward) (bindPort : UInt16) :
    ResolvedRemoteForward :=
  { forward with resolvedBindPort := bindPort }

/-- A port that does not fit counts as zero, which no resolved port is. -/
def matchesConnectedEndpoint (forward : ResolvedRemoteForward) (connectedAddress : String)
    (connectedPort : UInt32) : Bool :=
  forward.resolvedBindPort != 0 &&
    forward.resolvedBindPort == (u16TryFrom connectedPort).getD 0 &&
    (forward.plan.bindHost == connectedAddress || forward.plan.bindHost == "0.0.0.0" ||
      forward.plan.bindHost == "::")

/-- The connected endpoint is the listener: its port is the resolved one, and its address is the
bind host or the listener is on all addresses. -/
def Listens (forward : ResolvedRemoteForward) (connectedAddress : String)
    (connectedPort : UInt32) : Prop :=
  forward.resolvedBindPort ≠ 0 ∧ connectedPort.toNat = forward.resolvedBindPort.toNat ∧
    (connectedAddress = forward.plan.bindHost ∨ forward.plan.bindHost = "0.0.0.0" ∨
      forward.plan.bindHost = "::")

/-- A connection matches when it came in at the address and the port of the forward. -/
theorem matchesConnectedEndpoint_iff (forward : ResolvedRemoteForward) (connectedAddress : String)
    (connectedPort : UInt32) :
    forward.matchesConnectedEndpoint connectedAddress connectedPort = true ↔
      forward.Listens connectedAddress connectedPort := by
  have hport : forward.resolvedBindPort ≠ 0 →
      (forward.resolvedBindPort = (u16TryFrom connectedPort).getD 0 ↔
        connectedPort.toNat = forward.resolvedBindPort.toNat) := by
    intro hne
    rw [← u16TryFrom_eq_some_iff]
    cases u16TryFrom connectedPort with
    | none => simpa using hne
    | some port => simpa using eq_comm
  simp only [matchesConnectedEndpoint, Listens, Bool.and_eq_true, bne_iff_ne, ne_eq, beq_iff_eq,
    Bool.or_eq_true, and_assoc, or_assoc]
  refine and_congr_right fun hne => ?_
  rw [hport hne, eq_comm (a := forward.plan.bindHost)]

end ResolvedRemoteForward

/-- The lookup of `server_channel_open_forwarded_tcpip`. -/
def forwardFor (remoteForwards : List ResolvedRemoteForward) (connectedAddress : String)
    (connectedPort : UInt32) : Option ResolvedRemoteForward :=
  remoteForwards.find? (·.matchesConnectedEndpoint connectedAddress connectedPort)

/-! ## Opens during and after the startup -/

/-- `open_remote_tcpip_forward_with_lifecycle`, from the connect to the value it returns. The
reply is validated before the port is stored. -/
inductive ListenerStartup where
  | requesting
  | storing (boundPort : UInt16)
  | returned (result : Except SshSessionError UInt16)

inductive BridgePhase where
  | connecting
  | copying
  | shutDown
deriving DecidableEq, Repr

/-- A channel with a task of its own that connects it to the target. -/
structure BridgedChannel where
  target : String × UInt16
  phase : BridgePhase := .connecting
deriving DecidableEq, Repr

structure ListenerState where
  forward : ResolvedRemoteForward
  startup : ListenerStartup := .requesting
  bridged : List BridgedChannel := []
  /-- The channels that were closed right away. -/
  closed : Nat := 0

inductive ListenerLabel where
  /-- The connect, the authentication or the request fails, or the startup is cancelled or times
  out. -/
  | abort (error : SshSessionError)
  | reply (returnedPort : UInt32)
  | store
  | channelOpen (connectedAddress : String) (connectedPort : UInt32)
  /-- The task of channel `i` has or has not reached the target in time. -/
  | targetConnected (i : Nat) (ok : Bool)
  | copyEnded (i : Nat)

def ListenerState.movePhase (s : ListenerState) (i : Nat) (phase : BridgePhase) : ListenerState :=
  { s with bridged := s.bridged.modify i ({ · with phase }) }

/-- One step of the startup or of the handler. -/
def ListenerState.step (s : ListenerState) : ListenerLabel → Option ListenerState
  | .abort error =>
      match s.startup with
      | .requesting => some { s with startup := .returned (.error error) }
      | _ => none
  | .reply returnedPort =>
      match s.startup with
      | .requesting =>
          match resolvedRemoteForwardBoundPort s.forward.plan.bindPort returnedPort with
          | .error error => some { s with startup := .returned (.error error) }
          | .ok boundPort => some { s with startup := .storing boundPort }
      | _ => none
  | .store =>
      match s.startup with
      | .storing boundPort =>
          some { s with
            forward := s.forward.resolveBindPort boundPort
            startup := .returned (.ok boundPort) }
      | _ => none
  | .channelOpen connectedAddress connectedPort =>
      -- the handler is there from the connect on, whatever the startup does
      match forwardFor [s.forward] connectedAddress connectedPort with
      | none => some { s with closed := s.closed + 1 }
      | some forward =>
          some { s with bridged := s.bridged ++ [{ target := forward.plan.target }] }
  | .targetConnected i ok =>
      match s.bridged[i]? with
      | some { phase := .connecting, .. } =>
          some (s.movePhase i (if ok then .copying else .shutDown))
      | _ => none
  | .copyEnded i =>
      match s.bridged[i]? with
      | some { phase := .copying, .. } => some (s.movePhase i .shutDown)
      | _ => none

def remoteListener : Machine ListenerState ListenerLabel where
  step := ListenerState.step

/-- The session is about to be connected. -/
def ListenerState.start (plan : RusshRemoteTcpIpForwardPlan) : ListenerState where
  forward := .new plan

/-- Everything a step can do. -/
inductive ListenerState.Step (s : ListenerState) : ListenerLabel → ListenerState → Prop
  | abort {error : SshSessionError} (hstartup : s.startup = .requesting) :
      Step s (.abort error) { s with startup := .returned (.error error) }
  | invalid {returnedPort : UInt32} {error : SshSessionError} (hstartup : s.startup = .requesting)
      (hport : resolvedRemoteForwardBoundPort s.forward.plan.bindPort returnedPort =
        .error error) :
      Step s (.reply returnedPort) { s with startup := .returned (.error error) }
  | reply {returnedPort : UInt32} {boundPort : UInt16} (hstartup : s.startup = .requesting)
      (hport : resolvedRemoteForwardBoundPort s.forward.plan.bindPort returnedPort =
        .ok boundPort) :
      Step s (.reply returnedPort) { s with startup := .storing boundPort }
  | store {boundPort : UInt16} (hstartup : s.startup = .storing boundPort) :
      Step s .store { s with
        forward := s.forward.resolveBindPort boundPort
        startup := .returned (.ok boundPort) }
  | close {connectedAddress : String} {connectedPort : UInt32}
      (hother : ¬ s.forward.Listens connectedAddress connectedPort) :
      Step s (.channelOpen connectedAddress connectedPort) { s with closed := s.closed + 1 }
  | bridge {connectedAddress : String} {connectedPort : UInt32}
      (hlistens : s.forward.Listens connectedAddress connectedPort) :
      Step s (.channelOpen connectedAddress connectedPort)
        { s with bridged := s.bridged ++ [{ target := s.forward.plan.target }] }
  | targetConnected {i : Nat} {ok : Bool} {target : String × UInt16}
      (hphase : s.bridged[i]? = some { target, phase := .connecting }) :
      Step s (.targetConnected i ok) (s.movePhase i (if ok then .copying else .shutDown))
  | copyEnded {i : Nat} {target : String × UInt16}
      (hphase : s.bridged[i]? = some { target, phase := .copying }) :
      Step s (.copyEnded i) (s.movePhase i .shutDown)

/-- `Step` has every step of the listener. -/
theorem ListenerState.step_sound {s s' : ListenerState} {l : ListenerLabel}
    (h : remoteListener.step s l = some s') : Step s l s' := by
  change s.step l = some s' at h
  cases l with
  | abort error =>
      simp only [step] at h
      split at h
      · rename_i hstartup
        obtain rfl := Option.some.inj h
        exact .abort hstartup
      · cases h
  | reply returnedPort =>
      -- port 0 in the plan asks the server to choose
      simp only [step] at h
      split at h
      · rename_i hstartup
        split at h <;> rename_i hport <;> obtain rfl := Option.some.inj h
        · exact .invalid hstartup hport
        · exact .reply hstartup hport
      · cases h
  | store =>
      simp only [step] at h
      split at h
      · rename_i hstartup
        obtain rfl := Option.some.inj h
        exact .store hstartup
      · cases h
  | channelOpen connectedAddress connectedPort =>
      -- the match decides between a bridge and a close
      have hlistens := s.forward.matchesConnectedEndpoint_iff connectedAddress connectedPort
      cases hmatch : s.forward.matchesConnectedEndpoint connectedAddress connectedPort with
      | false =>
          simp only [step, forwardFor, List.find?_cons, hmatch, List.find?_nil,
            Option.some.injEq] at h
          subst h
          exact .close fun hyes => by simp [hlistens.mpr hyes] at hmatch
      | true =>
          simp only [step, forwardFor, List.find?_cons, hmatch, Option.some.injEq] at h
          subst h
          exact .bridge (hlistens.mp hmatch)
  | targetConnected i ok =>
      simp only [step] at h
      split at h
      · rename_i hphase
        obtain rfl := Option.some.inj h
        exact .targetConnected hphase
      · cases h
  | copyEnded i =>
      simp only [step] at h
      split at h
      · rename_i hphase
        obtain rfl := Option.some.inj h
        exact .copyEnded hphase
      · cases h

/-- A channel keeps its target. -/
theorem ListenerState.mem_movePhase {s : ListenerState} {i : Nat} {phase : BridgePhase}
    {channel : BridgedChannel} (h : channel ∈ (s.movePhase i phase).bridged) :
    ∃ old ∈ s.bridged, channel.target = old.target := by
  rcases List.mem_iff_getElem?.mp h with ⟨j, hj⟩
  rw [movePhase, List.getElem?_modify] at hj
  rcases Option.map_eq_some_iff.mp hj with ⟨old, hold, rfl⟩
  refine ⟨old, List.mem_of_getElem? hold, ?_⟩
  split <;> rfl

/-- What the shared port is at each stage, and which channels are bridged by then. -/
structure ListenerInv (plan : RusshRemoteTcpIpForwardPlan) (s : ListenerState) : Prop where
  planned : s.forward.plan = plan
  port : match s.startup with
    | .requesting => s.forward.resolvedBindPort = plan.bindPort
    | .storing boundPort => boundPort ≠ 0 ∧ s.forward.resolvedBindPort = plan.bindPort
    | .returned (.ok boundPort) => boundPort ≠ 0 ∧ s.forward.resolvedBindPort = boundPort
    | .returned (.error _) => s.forward.resolvedBindPort = plan.bindPort
  pending : plan.bindPort = 0 → (∀ boundPort, s.startup ≠ .returned (.ok boundPort)) →
    s.bridged = []
  targets : ∀ channel ∈ s.bridged, channel.target = plan.target

/-- The port is the requested one until the reply is stored. -/
theorem ListenerInv.unresolved {plan : RusshRemoteTcpIpForwardPlan} {s : ListenerState}
    (h : ListenerInv plan s) (hpending : ∀ boundPort, s.startup ≠ .returned (.ok boundPort)) :
    s.forward.resolvedBindPort = plan.bindPort := by
  have hport := h.port
  split at hport
  · exact hport
  · exact hport.2
  · rename_i boundPort hstartup
    exact absurd hstartup (hpending boundPort)
  · exact hport

/-- Each step of the listener keeps the invariant. -/
theorem listener_step_inv (plan : RusshRemoteTcpIpForwardPlan) :
    ∀ s l s', remoteListener.step s l = some s' → ListenerInv plan s → ListenerInv plan s' := by
  intro s l s' h hinv
  have hplan := hinv.planned
  -- while the request is under way, nothing has been resolved
  have hrequesting (hstartup : s.startup = .requesting) :
      s.forward.resolvedBindPort = plan.bindPort ∧ (plan.bindPort = 0 → s.bridged = []) := by
    have hpending : ∀ boundPort, s.startup ≠ .returned (.ok boundPort) := by simp [hstartup]
    exact ⟨hinv.unresolved hpending, fun hzero => hinv.pending hzero hpending⟩
  cases ListenerState.step_sound h with
  | abort hstartup | invalid hstartup =>
      obtain ⟨hport, hnone⟩ := hrequesting hstartup
      exact ⟨hplan, hport, fun hzero _ => hnone hzero, hinv.targets⟩
  | reply hstartup hreply =>
      obtain ⟨hport, hnone⟩ := hrequesting hstartup
      have hne := (resolvedRemoteForwardBoundPort_eq_ok hreply).1
      exact ⟨hplan, ⟨hne, hport⟩, fun hzero _ => hnone hzero, hinv.targets⟩
  | @store boundPort hstartup =>
      have hport := hinv.port
      simp only [hstartup] at hport
      exact ⟨hplan, ⟨hport.1, rfl⟩, fun _ hpending => absurd rfl (hpending boundPort),
        hinv.targets⟩
  | close hother => exact ⟨hplan, hinv.port, hinv.pending, hinv.targets⟩
  | bridge hlistens =>
      refine ⟨hplan, hinv.port, ?_, ?_⟩
      · -- an unresolved port is zero, and zero matches nothing
        intro hzero hpending
        exact absurd ((hinv.unresolved hpending).trans hzero) hlistens.1
      · intro channel hmem
        rcases List.mem_append.mp hmem with hmem | hmem
        · exact hinv.targets channel hmem
        · rw [List.mem_singleton.mp hmem, hplan]
  | targetConnected | copyEnded =>
      refine ⟨hplan, hinv.port, ?_, ?_⟩
      · intro hzero hpending
        simp [ListenerState.movePhase, hinv.pending hzero hpending]
      · intro channel hmem
        rcases ListenerState.mem_movePhase hmem with ⟨old, hold, htarget⟩
        rw [htarget]
        exact hinv.targets old hold

theorem listener_inv_start (plan : RusshRemoteTcpIpForwardPlan) :
    ListenerInv plan (.start plan) where
  planned := rfl
  port := rfl
  pending _ _ := rfl
  targets := nofun

/-- In every state that a forward can reach: a step that bridges a channel is an open which names
the resolved port, untruncated and not zero, and the address the listener is on; channels are
bridged to the target of the plan; with a port of the server's choice, none is bridged before the
choice is known; and the startup returns a port from 1 to 65535, the one that channels are
matched with, or fails. -/
theorem only_bound_port_bridged (plan : RusshRemoteTcpIpForwardPlan) (trace : List ListenerLabel)
    {s : ListenerState} (hrun : remoteListener.run (.start plan) trace = some s) :
    (∀ l s', remoteListener.step s l = some s' → s.bridged.length < s'.bridged.length →
      ∃ connectedAddress connectedPort, l = .channelOpen connectedAddress connectedPort ∧
        connectedPort.toNat = s.forward.resolvedBindPort.toNat ∧
        s.forward.resolvedBindPort ≠ 0 ∧
        (connectedAddress = plan.bindHost ∨ plan.bindHost = "0.0.0.0" ∨ plan.bindHost = "::")) ∧
    (∀ channel ∈ s.bridged, channel.target = plan.target) ∧
    (plan.bindPort = 0 → (∀ boundPort, s.startup ≠ .returned (.ok boundPort)) →
      s.bridged = []) ∧
    (∀ boundPort, s.startup = .returned (.ok boundPort) →
      1 ≤ boundPort.toNat ∧ boundPort.toNat ≤ 65535 ∧
        s.forward.resolvedBindPort = boundPort) ∧
    (∀ returnedPort s', remoteListener.step s (.reply returnedPort) = some s' →
      (∃ boundPort, s'.startup = .storing boundPort ∧ boundPort ≠ 0 ∧
        (returnedPort.toNat = boundPort.toNat ∨ returnedPort = 0 ∧ boundPort = plan.bindPort)) ∨
      ∃ error, s'.startup = .returned (.error error)) := by
  have hinv := Machine.run_invariant (listener_step_inv plan) hrun (listener_inv_start plan)
  refine ⟨?_, hinv.targets, hinv.pending, ?_, ?_⟩
  · intro l s' hstep hgrown
    cases ListenerState.step_sound hstep with
    | bridge hlistens =>
        obtain ⟨hne, hport, haddress⟩ := hlistens
        rw [hinv.planned] at haddress
        exact ⟨_, _, rfl, hport, hne, haddress⟩
    | abort | invalid | reply | store | close => exact absurd hgrown (Nat.lt_irrefl _)
    | targetConnected | copyEnded => simp [ListenerState.movePhase] at hgrown
  · intro boundPort hstartup
    have hport := hinv.port
    simp only [hstartup] at hport
    -- a bound port is not zero
    have hne : boundPort.toNat ≠ 0 := fun hzero => hport.1 (UInt16.toNat_inj.mp hzero)
    have hlt := boundPort.toNat_lt
    exact ⟨by omega, by omega, hport.2⟩
  · intro returnedPort s' hstep
    cases ListenerState.step_sound hstep with
    | invalid hstartup hport => exact .inr ⟨_, rfl⟩
    | reply hstartup hport =>
        rw [hinv.planned] at hport
        exact .inl ⟨_, rfl, resolvedRemoteForwardBoundPort_eq_ok hport⟩

/-- The server picks port 42000. An open that comes before its reply and one that names the port
plus 65536 are closed. -/
def assignedPort : List ListenerLabel :=
  [.channelOpen "127.0.0.1" 42000, .reply 42000, .channelOpen "127.0.0.1" 42000, .store,
    .channelOpen "127.0.0.1" 107536, .channelOpen "127.0.0.1" 42000, .targetConnected 0 true]

/-- The run in which the server chooses the port. -/
theorem assignedPort_bridged :
    ∃ s, remoteListener.run (.start ⟨"127.0.0.1", 0, "127.0.0.1", 9⟩) assignedPort = some s ∧
      s.closed = 3 ∧ s.bridged = [{ target := ("127.0.0.1", 9), phase := .copying }] ∧
      s.forward.resolvedBindPort = 42000 := by
  have hrun : ∃ s, remoteListener.run (.start ⟨"127.0.0.1", 0, "127.0.0.1", 9⟩) assignedPort =
      some s ∧ s.closed = 3 ∧
        s.bridged = [{ target := ("127.0.0.1", 9), phase := .copying }] ∧
        s.startup = .returned (.ok 42000) := ⟨_, rfl, rfl, rfl, rfl⟩
  rcases hrun with ⟨s, hrun, hclosed, hbridged, hstartup⟩
  obtain ⟨-, -, -, hreturned, -⟩ := only_bound_port_bridged _ assignedPort hrun
  exact ⟨s, hrun, hclosed, hbridged, (hreturned 42000 hstartup).2.2⟩

end Rssh
