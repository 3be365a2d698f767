import MoqQuic.Core.LTS
import MoqQuic.L3Protocol.Moqt.Message

/-!
# The control stream of a session (`moqt/controlstream.go`, `moqtsession.go`)

`ServeCS` hands every parsed message to `handleSetupMessage` until the
handshake is done and to `handleControlMessage`, which dispatches it to the
session's handler, from then on. The handshake is done once a setup message
passes its checks: a draft, a role parameter, and `SetRemoteRole`, which looks
at the local role. Neither the mode of the session nor the value of the remote
role is looked at.

`GetParameter` walks the map for a parameter of the given type. A parsed map
files each parameter under its own type, so the walk finds what a lookup finds
(`find_eq_getParameter`).

Results:
* `gated_iff`: messages reach the handler only behind the setup message that
  belongs to the mode, with one of the three roles, exactly when no other setup
  message passes the checks before that.
-/
namespace MoqQuic.L3.Moqt
open LTS L1.Quicvarint Option List

def ROLE_PUBLISHER : Nat := 0x01
def ROLE_SUBSCRIBER : Nat := 0x02
def ROLE_RELAY : Nat := 0x03

def DRAFT_04 : Nat := 0xff000004

def MOQERR_INTERNAL_ERROR : Nat := 0x1
def MOQERR_PROTOCOL_VIOLATION : Nat := 0x3

/-- `SERVER_MODE` and `CLIENT_MODE`. -/
inductive Mode where
  | server
  | client
  deriving DecidableEq

/-- `param.Type()` -/
def Parameter.type : Parameter → Nat
  | .int ptype _ => ptype
  | .str ptype _ => ptype

/-- mirrors parameter.go:142-151 -/
def Parameters.getParameter (params : Parameters) (key : Nat) : Option Parameter := params.lookup key

/-- `param.Value().(uint64)` of the parameter with the role; `none` when the assertion panics.
mirrors clientsetup.go:19-27 and serversetup.go:24-32 -/
def Parameters.getRoleParam (params : Parameters) : Option (Except String Nat) :=
  match params.getParameter ROLE_PARAM with
  | some (.int _ pvalue) => some (.ok pvalue)
  | some (.str ..) => none
  | none => some (.error "Param not found")

/-- mirrors clientsetup.go:103-112 -/
def ClientSetup.checkDraftSupport (setup : ClientSetup) : Bool :=
  setup.supportedVersions.any (· = DRAFT_04)

/-- The fields of the session and of its control stream that the handshake uses. -/
structure ControlStream where
  mode : Mode
  localRole : Nat
  remoteRole : Nat := 0
  ishandshakedone : Bool := false
  deriving DecidableEq

/-- What handling a message does outside: `HandshakeDone <- true`, `WriteControlMessage`, `Close` and the
call of the handler's method. -/
inductive Action where
  | handshakeDone
  | write (m : Message)
  | close (code : Nat) (msg : String)
  | dispatch (m : Message)
  deriving DecidableEq

namespace ControlStream

/-- mirrors moqtsession.go:46-68 and controlstream.go:20-23 -/
def new (mode : Mode) (localRole : Nat) : ControlStream := { mode, localRole }

variable (cs : ControlStream)

/-- The role is set before it is checked. mirrors moqtsession.go:130-149 -/
def setRemoteRole (role : Nat) : Except String Unit × ControlStream :=
  let cs := { cs with remoteRole := role }
  if cs.localRole = ROLE_PUBLISHER then
    if cs.remoteRole = ROLE_PUBLISHER then (.error "I am a Pub. Role Error", cs) else (.ok (), cs)
  else if cs.localRole = ROLE_SUBSCRIBER then
    if cs.remoteRole = ROLE_SUBSCRIBER then (.error "I am a Sub. Role Error", cs) else (.ok (), cs)
  else if cs.localRole = ROLE_RELAY then (.ok (), cs)
  else (.error "Unknown Role", cs)

/-- The two cases of `handleSetupMessage` agree from the role parameter on, except for the reply.
mirrors controlstream.go:82-101 and :114-126 -/
def setupRole (params : Parameters) (reply : List Action) : Option (ControlStream × List Action) := do
  match ← params.getRoleParam with
  | .error _ => return (cs, [.close MOQERR_INTERNAL_ERROR "CLIENT SETUP ERROR : ROLE PARAM MISSING"])
  | .ok role =>
    match cs.setRemoteRole role with
    | (.error err, cs) => return (cs, [.close MOQERR_PROTOCOL_VIOLATION err])
    | (.ok (), cs) => return ({ cs with ishandshakedone := true }, .handshakeDone :: reply)

/-- mirrors controlstream.go:95-97 -/
def serverSetup : Message :=
  .serverSetup { selectedVersion := DRAFT_04
                 params := Finmap.singleton ROLE_PARAM (.int ROLE_PARAM cs.localRole) }

/-- mirrors controlstream.go:65-131 -/
def handleSetupMessage : Message → Option (ControlStream × List Action)
  | .clientSetup setup =>
    if setup.checkDraftSupport then cs.setupRole setup.params [.write cs.serverSetup]
    else some (cs, [.close MOQERR_INTERNAL_ERROR "CLIENT SETUP ERROR : PROTOCOL DRAFT NOT SUPPORTED"])
  | .serverSetup setup =>
    if setup.selectedVersion = DRAFT_04 then cs.setupRole setup.params []
    else some (cs, [.close MOQERR_INTERNAL_ERROR "SERVER SETUP ERRR : PROTOCOL DRAFT NOT SUPPORTED"])
  | _ => some (cs, [])

/-- mirrors controlstream.go:133-149 -/
def handleControlMessage : Message → List Action
  | .announce m => [.dispatch (.announce m)]
  | .subscribe m => [.dispatch (.subscribe m)]
  | .subscribeOk m => [.dispatch (.subscribeOk m)]
  | .announceOk m => [.dispatch (.announceOk m)]
  | .unsubcribe m => [.dispatch (.unsubcribe m)]
  | _ => []

/-- One round of the loop; `none` when it panics. mirrors controlstream.go:45-62 -/
def serve (m : Message) : Option (ControlStream × List Action) :=
  if cs.ishandshakedone then some (cs, handleControlMessage m) else cs.handleSetupMessage m

def step (m : Message) : Option ControlStream := (cs.serve m).map Prod.fst

end ControlStream

/-- On a parsed map, the walk of `GetParameter` finds the same parameter in every order. -/
theorem find_eq_getParameter {ps : Parameters} (hk : ps.Known) {order : List Entry}
    (ho : Enumerates order ps) (key : Nat) :
    (order.find? (fun e => e.2.type = key)).map Sigma.snd = ps.getParameter key := by
  have hmem : ∀ e, e ∈ order ↔ e ∈ ps.entries := fun e => by rw [← ho, Multiset.mem_coe]
  have htype : ∀ e ∈ order, e.2.type = e.1 := by
    intro e he
    obtain ⟨v, -, rfl⟩ | ⟨str, rfl⟩ := hk e ((hmem e).mp he) <;> rfl
  cases hf : order.find? (fun e => e.2.type = key) with
  | none =>
    refine (eq_none_iff_forall_not_mem.mpr fun p hp => ?_).symm
    have hin := (hmem ⟨key, p⟩).mpr (Finmap.mem_lookup_iff.mp hp)
    have hne := List.find?_eq_none.mp hf _ hin
    exact hne (decide_eq_true (htype _ hin))
  | some e =>
    have hin := mem_of_find?_eq_some hf
    have hkey : e.1 = key := (htype e hin).symm.trans (by simpa using List.find?_some hf)
    subst hkey
    exact (Finmap.mem_lookup_iff.mpr ((hmem e).mp hin)).symm

/-! ## The handshake gate -/

/-- Not both publishers, not both subscribers; the local role is one of the three. -/
def Compatible (localRole remoteRole : Nat) : Prop :=
  localRole = ROLE_PUBLISHER ∧ remoteRole ≠ ROLE_PUBLISHER ∨
  localRole = ROLE_SUBSCRIBER ∧ remoteRole ≠ ROLE_SUBSCRIBER ∨ localRole = ROLE_RELAY

/-- The role a setup message carries. -/
def Message.role : Message → Option Nat
  | .clientSetup setup => roleOf setup.params
  | .serverSetup setup => roleOf setup.params
  | _ => none
where
  roleOf (params : Parameters) : Option Nat :=
    match params.getRoleParam with
    | some (.ok role) => some role
    | _ => none

/-- The draft the message offers, or selects, is supported. -/
def Message.DraftOk : Message → Prop
  | .clientSetup setup => setup.checkDraftSupport = true
  | .serverSetup setup => setup.selectedVersion = DRAFT_04
  | _ => False

/-- The setup message a session in this mode waits for. -/
def Message.OfKind : Mode → Message → Prop
  | .server, .clientSetup _ => True
  | .client, .serverSetup _ => True
  | _, _ => False

def KnownRole (role : Nat) : Prop := role = ROLE_PUBLISHER ∨ role = ROLE_SUBSCRIBER ∨ role = ROLE_RELAY

/-- The setup message that may complete the handshake. -/
def Message.Right (mode : Mode) (localRole : Nat) (m : Message) : Prop :=
  m.OfKind mode ∧ m.DraftOk ∧ ∃ role, m.role = some role ∧ KnownRole role ∧ Compatible localRole role

/-- Handling `m` in `cs`, after the messages `past`, respects the gate: only behind the right setup message
does the handler see it, and only the right setup message completes the handshake. -/
def Gate (past : List Message) (cs : ControlStream) (m : Message) : Prop :=
  ∀ cs' acts, cs.serve m = some (cs', acts) →
    (∀ m', .dispatch m' ∈ acts → ∃ setup ∈ past, setup.Right cs.mode cs.localRole) ∧
    (.handshakeDone ∈ acts → m.Right cs.mode cs.localRole)

/-- Every message of the sequence respects the gate. -/
def Gated (mode : Mode) (localRole : Nat) (ms : List Message) : Prop :=
  AlongHistory ControlStream.step Gate [] (.new mode localRole) ms

/-- Before the handshake is done, a setup message with a supported draft and a role the local one can work
with is of the kind the mode waits for, and its role is one of the three. -/
def Fitting (cs : ControlStream) (m : Message) : Prop :=
  cs.ishandshakedone = false → m.DraftOk → ∀ role, m.role = some role → Compatible cs.localRole role →
    m.OfKind cs.mode ∧ KnownRole role

namespace ControlStream

variable {cs cs' : ControlStream} {acts reply : List Action} {m : Message}

theorem setRemoteRole_snd (cs : ControlStream) (role : Nat) :
    (cs.setRemoteRole role).2 = { cs with remoteRole := role } := by
  simp only [setRemoteRole]
  repeat' split
  all_goals rfl

theorem setRemoteRole_ok (cs : ControlStream) (role : Nat) :
    (cs.setRemoteRole role).1 = .ok () ↔ Compatible cs.localRole role := by
  unfold setRemoteRole Compatible
  by_cases hp : cs.localRole = ROLE_PUBLISHER <;> by_cases hs : cs.localRole = ROLE_SUBSCRIBER <;>
    by_cases hr : cs.localRole = ROLE_RELAY <;>
    simp_all [ROLE_PUBLISHER, ROLE_SUBSCRIBER, ROLE_RELAY] <;> split <;> simp_all

/-- The stream after the handshake with a peer of role `role`. -/
def done (cs : ControlStream) (role : Nat) : ControlStream :=
  { cs with remoteRole := role, ishandshakedone := true }

theorem setupRole_of_compatible {params : Parameters} {role : Nat}
    (hr : Message.role.roleOf params = some role) (hc : Compatible cs.localRole role) :
    cs.setupRole params reply = some (cs.done role, .handshakeDone :: reply) := by
  unfold Message.role.roleOf at hr
  split at hr
  · next heq =>
    cases hr
    have hpair : cs.setRemoteRole role = (.ok (), { cs with remoteRole := role }) :=
      Prod.ext ((setRemoteRole_ok cs role).mpr hc) (setRemoteRole_snd cs role)
    simp only [setupRole, heq, bind_eq_bind, bind_some, hpair]
    rfl
  · cases hr

/-- A role parameter either completes the handshake or closes the session. -/
theorem setupRole_cases {params : Parameters} (h : cs.setupRole params reply = some (cs', acts)) :
    (∃ role, Message.role.roleOf params = some role ∧ Compatible cs.localRole role) ∨
    (∃ remoteRole, cs' = { cs with remoteRole }) ∧ ∃ code msg, acts = [.close code msg] := by
  cases hr : params.getRoleParam with
  | none => simp [setupRole, hr] at h
  | some result =>
    cases result with
    | error err =>
      simp only [setupRole, hr, bind_eq_bind, bind_some] at h
      cases h
      exact .inr ⟨⟨cs.remoteRole, rfl⟩, _, _, rfl⟩
    | ok role =>
      cases hs : (cs.setRemoteRole role).1 with
      | ok => exact .inl ⟨role, by simp [Message.role.roleOf, hr], (setRemoteRole_ok cs role).mp hs⟩
      | error err =>
        have hpair : cs.setRemoteRole role = (.error err, { cs with remoteRole := role }) :=
          Prod.ext hs (setRemoteRole_snd cs role)
        simp only [setupRole, hr, bind_eq_bind, bind_some, hpair] at h
        cases h
        exact .inr ⟨⟨role, rfl⟩, _, _, rfl⟩

/-- The checks `handleSetupMessage` makes. -/
def Passes (cs : ControlStream) (m : Message) : Prop :=
  m.DraftOk ∧ ∃ role, m.role = some role ∧ Compatible cs.localRole role

/-- A message that passes the checks completes the handshake, and nothing is dispatched. -/
theorem handleSetupMessage_of_passes (h : cs.Passes m) :
    ∃ role reply, cs.handleSetupMessage m = some (cs.done role, .handshakeDone :: reply) ∧
      ∀ m', .dispatch m' ∉ reply := by
  obtain ⟨hd, role, hr, hc⟩ := h
  cases m with
  | clientSetup setup =>
    refine ⟨role, [.write cs.serverSetup], ?_, by simp⟩
    exact (if_pos hd).trans (setupRole_of_compatible hr hc)
  | serverSetup setup =>
    refine ⟨role, [], ?_, by simp⟩
    exact (if_pos hd).trans (setupRole_of_compatible hr hc)
  | _ => exact hd.elim

/-- Any other message leaves the handshake open; at most it closes the session. -/
theorem handleSetupMessage_of_not_passes (hn : ¬ cs.Passes m) (h : cs.handleSetupMessage m = some (cs', acts)) :
    (∃ remoteRole, cs' = { cs with remoteRole }) ∧ ∀ a ∈ acts, ∃ code msg, a = .close code msg := by
  -- the two setup messages differ in the draft check only
  have hrole : ∀ {params reply}, cs.setupRole params reply = some (cs', acts) →
      (∀ role, Message.role.roleOf params = some role → ¬ Compatible cs.localRole role) →
      (∃ remoteRole, cs' = { cs with remoteRole }) ∧ ∀ a ∈ acts, ∃ code msg, a = .close code msg := by
    intro params reply hs hnot
    obtain ⟨role, hr, hc⟩ | ⟨hcs, code, msg, rfl⟩ := setupRole_cases hs
    · exact absurd hc (hnot role hr)
    · exact ⟨hcs, fun a ha => ⟨code, msg, mem_singleton.mp ha⟩⟩
  cases m with
  | clientSetup setup | serverSetup setup =>
    rw [handleSetupMessage] at h
    split at h
    · next hd => exact hrole h fun role hr hc => hn ⟨hd, role, hr, hc⟩
    · cases h; exact ⟨⟨cs.remoteRole, rfl⟩, fun a ha => ⟨_, _, mem_singleton.mp ha⟩⟩
  | _ => cases h; exact ⟨⟨cs.remoteRole, rfl⟩, fun a ha => by cases ha⟩

theorem fitting_iff (hnd : cs.ishandshakedone = false) :
    Fitting cs m ↔ (cs.Passes m → m.Right cs.mode cs.localRole) := by
  constructor
  · rintro hf ⟨hd, role, hr, hc⟩
    obtain ⟨hkind, hknown⟩ := hf hnd hd role hr hc
    exact ⟨hkind, hd, role, hr, hknown, hc⟩
  intro h _ hd role hr hc
  obtain ⟨hkind, _, role', hr', hknown, _⟩ := h ⟨hd, role, hr, hc⟩
  rw [hr] at hr'
  rw [some.inj hr']
  exact ⟨hkind, hknown⟩

theorem handshakeDone_notMem_handleControlMessage : .handshakeDone ∉ handleControlMessage m := by
  cases m <;> simp [handleControlMessage]

/-- A handshake that is done was completed by the right setup message. -/
def SetUp (past : List Message) (cs : ControlStream) : Prop :=
  cs.ishandshakedone = true → ∃ setup ∈ past, setup.Right cs.mode cs.localRole

theorem gate_iff_fitting {past : List Message} (hi : cs.SetUp past) : Gate past cs m ↔ Fitting cs m := by
  cases hnd : cs.ishandshakedone with
  | true =>
    refine iff_of_true (fun cs' acts h => ?_) (fun hfalse => ?_)
    · rw [serve, if_pos hnd] at h
      cases h
      exact ⟨fun _ _ => hi hnd, fun hmem => absurd hmem handshakeDone_notMem_handleControlMessage⟩
    · rw [hnd] at hfalse; cases hfalse
  | false =>
    have hserve : cs.serve m = cs.handleSetupMessage m := by simp [serve, hnd]
    rw [fitting_iff hnd]
    constructor
    · intro hg hp
      obtain ⟨role, reply, hstep, _⟩ := handleSetupMessage_of_passes hp
      exact (hg _ _ (hserve.trans hstep)).2 (mem_cons_self ..)
    intro hright cs' acts h
    rw [hserve] at h
    by_cases hp : cs.Passes m
    · obtain ⟨role, reply, hstep, hnone⟩ := handleSetupMessage_of_passes hp
      cases hstep.symm.trans h
      exact ⟨fun m' hm' => absurd hm' (by simp [hnone m']), fun _ => hright hp⟩
    have hclose := (handleSetupMessage_of_not_passes hp h).2
    refine ⟨fun m' hm' => ?_, fun hmem => ?_⟩
    · obtain ⟨_, _, heq⟩ := hclose _ hm'; cases heq
    · obtain ⟨_, _, heq⟩ := hclose _ hmem; cases heq

/-- A fitting message keeps the invariant. -/
theorem SetUp.step {past : List Message} (hi : cs.SetUp past) (hf : Fitting cs m)
    (h : cs.step m = some cs') : cs'.SetUp (past ++ [m]) := by
  obtain ⟨⟨cs1, acts⟩, hserve, rfl⟩ := map_eq_some_iff.mp h
  cases hnd : cs.ishandshakedone with
  | true =>
    rw [serve, if_pos hnd] at hserve
    cases hserve
    intro hdone
    obtain ⟨setup, hmem, hright⟩ := hi hdone
    exact ⟨setup, mem_append_left _ hmem, hright⟩
  | false =>
    rw [serve, if_neg (by simp [hnd])] at hserve
    by_cases hp : cs.Passes m
    · obtain ⟨role, reply, hstep, _⟩ := handleSetupMessage_of_passes hp
      cases hstep.symm.trans hserve
      exact fun _ => ⟨m, by simp, (fitting_iff hnd).mp hf hp⟩
    obtain ⟨⟨remoteRole, rfl⟩, _⟩ := handleSetupMessage_of_not_passes hp hserve
    intro hdone
    rw [hnd] at hdone
    cases hdone

end ControlStream

/-- In every mode and role, and for every sequence of messages, the handler is gated by the right setup
message exactly when no other setup message passes the checks before the handshake is done. -/
theorem gated_iff (mode : Mode) (localRole : Nat) (ms : List Message) :
    Gated mode localRole ms ↔ Along ControlStream.step Fitting (.new mode localRole) ms := by
  refine alongHistory_iff_along ControlStream.SetUp ?_ ?_ ?_
  · intro past cs m hi
    exact ControlStream.gate_iff_fitting hi
  · intro past cs m cs' hi hf hs
    exact hi.step hf hs
  · intro hdone
    cases hdone

/-- A server that gets a ServerSetup with the role 7 hands the Announce that follows to its handler. -/
theorem announce_behind_serverSetup :
    let setup : Message := .serverSetup
      { selectedVersion := DRAFT_04, params := Finmap.singleton ROLE_PARAM (.int ROLE_PARAM 7) }
    (ControlStream.new .server ROLE_RELAY).serve setup =
        some ((ControlStream.new .server ROLE_RELAY).done 7, [.handshakeDone]) ∧
      ((ControlStream.new .server ROLE_RELAY).done 7).serve (.announce {}) =
        some ((ControlStream.new .server ROLE_RELAY).done 7, [.dispatch (.announce {})]) ∧
      ¬ Gated .server ROLE_RELAY [setup, .announce {}] := by
  refine ⟨rfl, rfl, fun h => ?_⟩
  have hright := (h.1 _ _ rfl).2 (mem_cons_self ..)
  exact hright.1

end MoqQuic.L3.Moqt
