import MoqQuic.L2Machine.Tquic.PacketNum
import MoqQuic.L2Machine.Tquic.RecvBuf
import MoqQuic.L2Machine.Tquic.Space
import MoqQuic.L3Protocol.Tquic.AntiAmplification

/-!
# Key updates (`tls/tls.rs`, `connection/connection.rs`)

The 1-RTT keys are replaced by the next ones when either side starts a new key
phase. A bit of the header tells the phases apart. `select_key` chooses between
the next and the previous keys for a packet whose bit is not the current one, by
the first packet of the current phase; `initiate_key_update` starts a new phase if
a packet of the current one was acknowledged.

Keys are an arbitrary type; deriving the next one and opening a packet are
parameters. Three fields of `Conn` are not in the source: the numbers of the
packets of the current phase that were received and sent, and the ACK ranges that
arrived in it.

Results:
* `key_chosen`: the keys are chosen by the number of the packet and the smallest
  number of the phase, in every run in which the first packet of a phase is the
  smallest one and packets lose the same high bits as it.
* `next_keys_missed`: packet 256 in one byte.
* `update_earned_iff`: keys are updated only after an acknowledgement exactly if
  the largest acknowledged number is known whenever an update is allowed.
* `update_unearned`: two updates without any ACK.
-/
namespace MoqQuic.L3.Tquic.KeyUpdate
open LTS Reader L2.Tquic.Space Option List PacketNumSpace Along
open L1.Tquic (PacketType)
open L2.Tquic (Error RangeSet SeqNumWindow decodePacketNum)

/-- `pktNum` is the number on the wire, with `pktNumLen` bytes. mirrors packet.rs:154-178 -/
structure PacketHeader where
  pktType : PacketType
  keyPhase : Bool
  pktNum : Nat
  pktNumLen : Nat
  deriving DecidableEq

/-- The space for application data. mirrors space.rs:64-145 -/
structure DataSpace extends PacketNumSpace where
  firstPktNumRecv : Option Nat
  firstPktNumSent : Option Nat
  largestRxPktNum : Nat
  recvPktNumWin : SeqNumWindow

/-- mirrors space.rs:148-177 -/
def DataSpace.new : DataSpace := { PacketNumSpace.new with
  firstPktNumRecv := none
  firstPktNumSent := none
  largestRxPktNum := 0
  recvPktNumWin := SeqNumWindow.default }

/-- The 1-RTT keys are there; those for 0-RTT may be. -/
structure TlsSession (K : Type) where
  currentKeyPhase : Bool
  zeroRttKey : Option K
  key : K
  prevKey : Option K
  nextKey : Option K

namespace TlsSession

variable {K : Type} (derive : K → K) (t : TlsSession K)

def openKey : PacketType → Option K
  | .oneRTT => some t.key
  | .zeroRTT => t.zeroRttKey
  | _ => none

/-- mirrors tls.rs:359-369, 393-396, 413-415 -/
def nextKeys : K := t.nextKey.getD (derive t.key)

/-- The key, and whether opening with it is an attempt to update. mirrors tls.rs:390-399 -/
def openWithNext : Except Error ((K × Bool) × TlsSession K) :=
  .ok ((t.nextKeys derive, true), { t with nextKey := some (t.nextKeys derive) })

/-- mirrors tls.rs:401-408 -/
def openWithPrev : Except Error ((K × Bool) × TlsSession K) :=
  match t.prevKey with
  | some k => .ok ((k, false), t)
  | none => .error .done

/-- mirrors tls.rs:372-409 -/
def selectKey (confirmed multipath : Bool) (hdr : PacketHeader) (space : DataSpace) :
    Except Error ((K × Bool) × TlsSession K) :=
  if confirmed = false ∨ hdr.pktType ≠ .oneRTT ∨ t.currentKeyPhase = hdr.keyPhase ∨ multipath = true then
    match t.openKey hdr.pktType with
    | some k => .ok ((k, false), t)
    | none => .error .internalError
  else if space.firstPktNumRecv.any fun first => hdr.pktNum > first then t.openWithNext derive
  else t.openWithPrev

/-- mirrors tls.rs:413-421 -/
def updateKey : TlsSession K :=
  { t with
    currentKeyPhase := !t.currentKeyPhase
    prevKey := some t.key
    key := t.nextKeys derive
    nextKey := none }

end TlsSession

structure Conn (K : Type) where
  confirmed : Bool
  inEarlyData : Bool
  tls : TlsSession K
  space : DataSpace
  received : List Nat
  sentInPhase : List Nat
  acksInPhase : List RangeSet

inductive Event where
  | packetReceived (hdr : PacketHeader) (payload : Bytes) (framesOk : Bool)
  | packetSent
  | ackReceived (ranges : RangeSet)
  | initiateKeyUpdate
  | prevKeyDiscarded
  | handshakeConfirmed
  | earlyDataEnded

namespace Conn

variable {K : Type} (derive : K → K) (multipath : Bool) (aeadOpen : K → Nat → Bytes → Option Bytes)

def new (key : K) (zeroRttKey : Option K) (inEarlyData : Bool) : Conn K where
  confirmed := false
  inEarlyData := inEarlyData
  tls := ⟨false, zeroRttKey, key, none, none⟩
  space := DataSpace.new
  received := []
  sentInPhase := []
  acksInPhase := []

/-- A new phase has no packets and no ACKs. mirrors tls.rs:412-426 -/
def updateKey (c : Conn K) : Conn K :=
  { c with
    tls := c.tls.updateKey derive
    space := { c.space with firstPktNumRecv := none, firstPktNumSent := none }
    received := []
    sentInPhase := []
    acksInPhase := [] }

/-! ## Receiving -/

variable (c : Conn K)

/-- The number of the packet. mirrors connection.rs:543-544 -/
def fullPktNum (hdr : PacketHeader) : Nat :=
  decodePacketNum c.space.largestRxPktNum hdr.pktNum hdr.pktNumLen

/-- mirrors tls.rs:442-443 -/
def setFirstRecv (hdr : PacketHeader) : Conn K :=
  if c.space.firstPktNumRecv.isNone ∧ c.tls.currentKeyPhase = hdr.keyPhase then
    { c with space := { c.space with firstPktNumRecv := some hdr.pktNum } }
  else c

/-- The packet counts as received in the phase if its bit is the current one now. -/
def noteReceived (hdr : PacketHeader) (full : Nat) : Conn K :=
  if hdr.pktType = .oneRTT ∧ c.tls.currentKeyPhase = hdr.keyPhase then { c with received := c.received ++ [full] }
  else c

/-- The timer is left out. mirrors tls.rs:429-457 -/
def tryUpdateKey (attempt : Bool) (hdr : PacketHeader) (full : Nat) : Conn K :=
  ((if attempt then c.updateKey derive else c).setFirstRecv hdr).noteReceived hdr full

/-- mirrors connection.rs:655-657 -/
def noteProcessed (full : Nat) : Conn K :=
  { c with space := { c.space with
      recvPktNumWin := c.space.recvPktNumWin.insert full
      largestRxPktNum := max c.space.largestRxPktNum full } }

/-- `framesOk`: no frame of the packet is refused; what the frames do besides are events of their own.
mirrors connection.rs:539-603, 650-657 -/
def recvPacket (hdr : PacketHeader) (payload : Bytes) (framesOk : Bool) : Conn K :=
  let full := c.fullPktNum hdr
  if c.space.recvPktNumWin.contains full then c
  else match c.tls.selectKey derive c.confirmed multipath hdr c.space with
  | .error _ => c
  | .ok ((k, attempt), tls) =>
    let c := { c with tls }
    if (aeadOpen k full payload).all List.isEmpty then c
    else
      let c := c.tryUpdateKey derive attempt hdr full
      if framesOk then c.noteProcessed full else c

/-! ## Sending -/

/-- A client in early data sends 0-RTT packets; they have no phase. mirrors connection.rs:3116-3119, 1898-1908 -/
def sendPacket : Conn K :=
  let num := c.space.nextPktNum
  if c.inEarlyData then { c with space := { c.space with nextPktNum := num + 1 } }
  else { c with
    space := { c.space with nextPktNum := num + 1, firstPktNumSent := some (c.space.firstPktNumSent.getD num) }
    sentInPhase := c.sentInPhase ++ [num] }

/-- The largest acknowledged number is all that an ACK changes here. mirrors recovery.rs:244-249 -/
def ackPackets (ranges : RangeSet) (largest : Nat) : Conn K :=
  { c with
    space := { c.space with toPacketNumSpace := c.space.updateLargestAcked largest }
    acksInPhase := ranges :: c.acksInPhase }

/-- mirrors tls.rs:460-473 -/
def keyUpdateAllowed : Bool :=
  if multipath then false else c.space.firstPktNumSent.any fun first => first ≤ c.space.largestAckedPkt

/-- mirrors tls.rs:476-486 -/
def initiateKeyUpdate : Except Error (Conn K) :=
  if c.keyUpdateAllowed multipath then .ok (c.updateKey derive) else .error .done

/-- `none`: a packet of another space, or an ACK that no frame can carry: without numbers or beyond `2 ^ 62`. -/
def step : Event → Option (Conn K)
  | .packetReceived hdr payload framesOk =>
    if hdr.pktType = .oneRTT ∨ hdr.pktType = .zeroRTT then
      some (c.recvPacket derive multipath aeadOpen hdr payload framesOk)
    else none
  | .packetSent => some c.sendPacket
  | .ackReceived ranges =>
    ranges.max.bind fun largest => if largest < 2 ^ 62 then some (c.ackPackets ranges largest) else none
  | .initiateKeyUpdate => some <| match c.initiateKeyUpdate derive multipath with
    | .ok c' => c'
    | .error _ => c
  | .prevKeyDiscarded => some { c with tls := { c.tls with prevKey := none } }
  | .handshakeConfirmed => some { c with confirmed := true }
  | .earlyDataEnded => some { c with inEarlyData := false }

/-! ## Choosing the keys -/

/-- A packet that arrives with the bit of another phase is opened with the next keys if its number is larger than the
smallest one received in the current phase, and otherwise with the previous ones. -/
def KeyChosen : Event → Prop
  | .packetReceived hdr _ _ => c.confirmed = true → hdr.pktType = .oneRTT → c.tls.currentKeyPhase ≠ hdr.keyPhase →
      c.space.recvPktNumWin.contains (c.fullPktNum hdr) = false →
      c.tls.selectKey derive c.confirmed multipath hdr c.space =
        if c.received.min?.any fun smallest => smallest < c.fullPktNum hdr then c.tls.openWithNext derive
        else c.tls.openWithPrev
  | _ => True

/-- Packets are 1-RTT ones. One of the current phase is not before the first one that was received in it, and one with
the other bit has lost the same high bits as that one. -/
def InOrder : Event → Prop
  | .packetReceived hdr _ _ => hdr.pktType = .oneRTT ∧ ∀ n, c.received.head? = some n →
      if c.tls.currentKeyPhase = hdr.keyPhase then n ≤ c.fullPktNum hdr
      else ∀ first, c.space.firstPktNumRecv = some first → n + hdr.pktNum = first + c.fullPktNum hdr
  | _ => True

/-- The first number that was received in the phase is the smallest one. -/
structure FirstSmallest (c : Conn K) : Prop where
  isSome_iff : c.space.firstPktNumRecv.isSome = true ↔ c.received ≠ []
  head_le : ∀ n, c.received.head? = some n → ∀ m ∈ c.received, n ≤ m

variable {derive multipath aeadOpen} {c c' : Conn K} {e : Event} {hdr : PacketHeader}

/-- Choosing by the first packet of the phase is choosing by the smallest one. -/
theorem FirstSmallest.keyChosen (h : FirstSmallest c) (hok : InOrder c e) : KeyChosen derive false c e := by
  cases e with
  | packetReceived hdr payload framesOk =>
    intro hconf htype hphase _
    obtain ⟨-, hok⟩ := hok
    rw [TlsSession.selectKey, if_neg (by simp [hconf, htype, hphase])]
    suffices hsame : (c.space.firstPktNumRecv.any fun first => hdr.pktNum > first) =
        c.received.min?.any fun smallest => smallest < c.fullPktNum hdr by rw [hsame]
    cases hrec : c.received with
    | nil =>
      have hnone : c.space.firstPktNumRecv = none := by
        rw [← not_isSome_iff_eq_none, h.isSome_iff]
        exact fun hne => hne hrec
      rw [hnone]
      rfl
    | cons n rest =>
      obtain ⟨first, hfirst⟩ := isSome_iff_exists.mp (h.isSome_iff.mpr (hrec ▸ cons_ne_nil n rest))
      have hhead : c.received.head? = some n := by rw [hrec]; rfl
      have hmin := List.min?_eq_some_iff.mpr ⟨mem_cons_self, hrec ▸ h.head_le n hhead⟩
      have hsum := hok n hhead
      rw [if_neg hphase] at hsum
      have := hsum first hfirst
      rw [hfirst, hmin]
      exact decide_eq_decide.mpr (by omega)
  | _ => exact trivial

/-- What choosing a key changes, and when it is an attempt to update. -/
theorem selectKey_spec {t t' : TlsSession K} {confirmed attempt : Bool} {space : DataSpace} {k : K}
    (h : t.selectKey derive confirmed multipath hdr space = .ok ((k, attempt), t')) :
    t'.currentKeyPhase = t.currentKeyPhase ∧ (attempt = true → t.currentKeyPhase ≠ hdr.keyPhase) := by
  rw [TlsSession.selectKey] at h
  split at h
  · split at h
    · cases h
      exact ⟨rfl, fun hfalse => absurd hfalse Bool.false_ne_true⟩
    · cases h
  rename_i hother
  rw [not_or, not_or, not_or] at hother
  split at h
  · cases h
    exact ⟨rfl, fun _ => hother.2.2.1⟩
  rw [TlsSession.openWithPrev] at h
  split at h
  · cases h
    exact ⟨rfl, fun hfalse => absurd hfalse Bool.false_ne_true⟩
  · cases h

theorem firstSmallest_of_empty (hnone : c.space.firstPktNumRecv = none) (hrec : c.received = []) : FirstSmallest c where
  isSome_iff := by simp [hnone, hrec]
  head_le := fun n hn => by rw [hrec] at hn; cases hn

variable {full : Nat}

/-- A packet of the current phase. -/
theorem FirstSmallest.received (h : FirstSmallest c) (htype : hdr.pktType = .oneRTT)
    (hphase : c.tls.currentKeyPhase = hdr.keyPhase) (hle : ∀ n, c.received.head? = some n → n ≤ full) :
    FirstSmallest ((c.setFirstRecv hdr).noteReceived hdr full) := by
  have hfirst : (c.setFirstRecv hdr).space.firstPktNumRecv.isSome = true ∧
      (c.setFirstRecv hdr).received = c.received ∧ (c.setFirstRecv hdr).tls = c.tls := by
    rw [setFirstRecv]
    split
    · exact ⟨rfl, rfl, rfl⟩
    rename_i hset
    refine ⟨?_, rfl, rfl⟩
    rw [not_and, isNone_iff_eq_none] at hset
    exact isSome_iff_ne_none.mpr fun hnone => hset hnone hphase
  rw [noteReceived, if_pos ⟨htype, by rw [hfirst.2.2, hphase]⟩]
  refine ⟨iff_of_true hfirst.1 (by simp), fun n hn m hm => ?_⟩
  rw [hfirst.2.1] at hn hm
  cases hrec : c.received with
  | nil =>
    rw [hrec] at hn hm
    cases hn
    exact (mem_singleton.mp hm).ge
  | cons n' rest =>
    have hhead : c.received.head? = some n := by
      rw [hrec] at hn ⊢
      exact hn
    exact forall_mem_append.mpr ⟨h.head_le n hhead, forall_mem_singleton.mpr (hle n hhead)⟩ m hm

/-- A packet of another phase does not count. -/
theorem receivedOther (hphase : c.tls.currentKeyPhase ≠ hdr.keyPhase) :
    (c.setFirstRecv hdr).noteReceived hdr full = c := by
  rw [setFirstRecv, if_neg fun h => hphase h.2, noteReceived, if_neg fun h => hphase h.2]

variable {payload : Bytes} {framesOk : Bool}

/-- What a received packet does: nothing, choosing a key, or besides a possible update of the keys. -/
theorem recvPacket_cases {P : Conn K → Prop} (hc : P c)
    (hopened : ∀ k attempt t, c.tls.selectKey derive c.confirmed multipath hdr c.space = .ok ((k, attempt), t) →
      P { c with tls := t } ∧ P ({ c with tls := t }.tryUpdateKey derive attempt hdr (c.fullPktNum hdr)))
    (hprocessed : ∀ c full, P c → P (c.noteProcessed full)) :
    P (c.recvPacket derive multipath aeadOpen hdr payload framesOk) := by
  unfold Conn.recvPacket
  dsimp only
  split
  · exact hc
  split
  · exact hc
  next k attempt t hsel =>
  obtain ⟨htls, hupd⟩ := hopened k attempt t hsel
  split
  · exact htls
  split
  · exact hprocessed _ _ hupd
  · exact hupd

theorem FirstSmallest.tryUpdateKey (h : FirstSmallest c) {attempt : Bool} (htype : hdr.pktType = .oneRTT)
    (hattempt : attempt = true → c.tls.currentKeyPhase ≠ hdr.keyPhase)
    (hle : c.tls.currentKeyPhase = hdr.keyPhase → ∀ n, c.received.head? = some n → n ≤ full) :
    FirstSmallest (c.tryUpdateKey derive attempt hdr full) := by
  rw [Conn.tryUpdateKey]
  cases attempt with
  | true =>
    refine (firstSmallest_of_empty rfl rfl).received htype ?_ fun n hn => by cases hn
    exact Bool.not_eq.mpr (hattempt rfl)
  | false =>
    rw [if_neg Bool.false_ne_true]
    by_cases hcur : c.tls.currentKeyPhase = hdr.keyPhase
    · exact h.received htype hcur (hle hcur)
    rw [receivedOther hcur]
    exact h

theorem FirstSmallest.recvPacket (h : FirstSmallest c) (hok : InOrder c (.packetReceived hdr payload framesOk)) :
    FirstSmallest (c.recvPacket derive multipath aeadOpen hdr payload framesOk) := by
  obtain ⟨htype, hok⟩ := hok
  refine recvPacket_cases h (fun k attempt t hsel => ?_) fun c full h => ⟨h.isSome_iff, h.head_le⟩
  obtain ⟨hphase, hattempt⟩ := selectKey_spec hsel
  have ht : FirstSmallest { c with tls := t } := ⟨h.isSome_iff, h.head_le⟩
  refine ⟨ht, ht.tryUpdateKey htype ?_ ?_⟩
  · rw [hphase]
    exact hattempt
  rw [hphase]
  intro hcur n hn
  have hle := hok n hn
  rwa [if_pos hcur] at hle

/-- An update is started, or nothing happens. -/
theorem initiateKeyUpdate_cases {P : Conn K → Prop} (hc : P c) (hupd : P (c.updateKey derive))
    (hs : step derive multipath aeadOpen c .initiateKeyUpdate = some c') : P c' := by
  cases hs
  unfold Conn.initiateKeyUpdate
  split
  · next hinit =>
    split at hinit
    · cases hinit
      exact hupd
    · cases hinit
  · exact hc

theorem FirstSmallest.step (h : FirstSmallest c) (hok : InOrder c e)
    (hs : step derive multipath aeadOpen c e = some c') : FirstSmallest c' := by
  cases e with
  | packetReceived hdr payload framesOk =>
    rw [Conn.step] at hs
    split at hs
    · cases hs
      exact h.recvPacket hok
    · cases hs
  | packetSent =>
    cases hs
    unfold sendPacket
    split <;> exact ⟨h.isSome_iff, h.head_le⟩
  | ackReceived ranges =>
    obtain ⟨largest, -, hs⟩ := bind_eq_some_iff.mp hs
    split at hs
    · cases hs
      exact ⟨h.isSome_iff, h.head_le⟩
    · cases hs
  | initiateKeyUpdate =>
    exact initiateKeyUpdate_cases h (firstSmallest_of_empty rfl rfl) hs
  | prevKeyDiscarded | handshakeConfirmed | earlyDataEnded =>
    cases hs
    exact ⟨h.isSome_iff, h.head_le⟩

/-- In every run without multipath whose packets are in order, the keys are chosen as they should be. -/
theorem key_chosen (key : K) (zeroRttKey : Option K) (inEarlyData : Bool) (events : List Event)
    (hok : Along (step derive false aeadOpen) InOrder (new key zeroRttKey inEarlyData) events) :
    Along (step derive false aeadOpen) (KeyChosen derive false) (new key zeroRttKey inEarlyData) events :=
  of_invariant (fun _ _ h hok => h.keyChosen hok) (fun _ _ _ h hok hs => h.step hok hs)
    (firstSmallest_of_empty rfl rfl) hok

/-- Packets 1 and 2, the second one in the next phase. -/
theorem key_chosen_two : Along (step (· + 1) false fun _ _ payload => some payload) (KeyChosen (· + 1) false)
    (new 0 none false) [.handshakeConfirmed, .packetReceived ⟨.oneRTT, false, 1, 1⟩ [0] true,
      .packetReceived ⟨.oneRTT, true, 2, 1⟩ [0] true] := by
  have hfacts : (run (step (· + 1) false fun _ _ payload => some payload) (new 0 none false)
      [.handshakeConfirmed, .packetReceived ⟨.oneRTT, false, 1, 1⟩ [0] true]).map (fun c =>
        (c.received.head?, c.tls.currentKeyPhase, c.space.firstPktNumRecv, c.fullPktNum ⟨.oneRTT, true, 2, 1⟩)) =
      some (some 1, false, some 1, 2) := by decide +kernel
  refine key_chosen 0 none false _ ⟨trivial, fun c hc => ⟨⟨rfl, fun n hn => ?_⟩, fun c' hc' =>
    ⟨⟨rfl, fun n hn => ?_⟩, fun _ _ => trivial⟩⟩⟩
  · cases hc
    cases hn
  rw [run_cons.mpr ⟨c, hc, run_cons.mpr ⟨c', hc', rfl⟩⟩, map_some, some_inj, Prod.mk.injEq,
    Prod.mk.injEq, Prod.mk.injEq] at hfacts
  obtain ⟨hhead, hphase, hfirst, hfull⟩ := hfacts
  rw [hhead] at hn
  cases hn
  rw [hphase, hfirst, hfull, if_neg Bool.false_ne_true]
  rintro first ⟨⟩
  rfl

/-- Packet 255 is the first one of the phase. The next one starts a new phase, but its number is 0 on the wire. -/
theorem next_keys_missed : ∃ c : Conn Nat, run (step (· + 1) false fun _ _ payload => some payload) (new 0 none false)
      [.handshakeConfirmed, .packetReceived ⟨.oneRTT, false, 255, 1⟩ [0] true] = some c ∧
    c.received = [255] ∧ c.fullPktNum ⟨.oneRTT, true, 0, 1⟩ = 256 ∧ c.space.recvPktNumWin.contains 256 = false ∧
      c.tls.selectKey (· + 1) c.confirmed false ⟨.oneRTT, true, 0, 1⟩ c.space = c.tls.openWithPrev ∧
      c.tls.openWithPrev = .error .done := by
  refine exists_run (fun c =>
    decide ((c.received, c.fullPktNum ⟨.oneRTT, true, 0, 1⟩, c.space.firstPktNumRecv) = ([255], 256, some 255)) &&
      !c.space.recvPktNumWin.contains 256 && c.confirmed && !c.tls.currentKeyPhase && c.tls.prevKey.isNone)
    (by decide +kernel) fun c _ hc => ?_
  simp only [Prod.mk.injEq, Bool.and_eq_true, Bool.not_eq_true', isNone_iff_eq_none, decide_eq_true_eq] at hc
  obtain ⟨⟨⟨⟨⟨hrec, hfull, hfirst⟩, hwin⟩, hconf⟩, hphase⟩, hprev⟩ := hc
  refine ⟨hrec, hfull, hwin, ?_, ?_⟩
  · rw [TlsSession.selectKey, if_neg (by simp [hconf, hphase]), if_neg (by simp [hfirst])]
  · rw [TlsSession.openWithPrev, hprev]

/-! ## Starting an update -/

/-- An update succeeds only after an ACK of a 1-RTT packet of the phase, received in the phase. -/
def Earned (derive : K → K) (multipath : Bool) (c : Conn K) : Event → Prop
  | .initiateKeyUpdate => c.confirmed = true → (c.initiateKeyUpdate derive multipath).isOk = true →
      ∃ n ∈ c.sentInPhase, ∃ ranges ∈ c.acksInPhase, n ∈ ranges
  | _ => True

/-- ACKs are for packets that were sent. -/
def AcksSent (c : Conn K) : Event → Prop
  | .ackReceived ranges => ∀ n ∈ ranges, n < c.space.nextPktNum
  | _ => True

/-- The largest acknowledged number is known when an update is allowed. -/
def Known (multipath : Bool) (c : Conn K) : Event → Prop
  | .initiateKeyUpdate => c.confirmed = true → c.keyUpdateAllowed multipath = true →
      c.space.getLargestAckedPkt.isSome = true
  | _ => True

/-- What the numbers that are sent and acknowledged have to do with the phase. -/
structure PhaseNumbers (c : Conn K) : Prop where
  oneRtt : c.space.firstPktNumSent.isSome = true → c.inEarlyData = false
  sent : ∀ first, c.space.firstPktNumSent = some first → first ≤ c.space.nextPktNum ∧
    ∀ n, first ≤ n → n < c.space.nextPktNum → n ∈ c.sentInPhase
  largest : ∀ n, c.space.getLargestAckedPkt = some n → n < c.space.nextPktNum ∧ n < 2 ^ 62 ∧
    ((∃ ranges ∈ c.acksInPhase, n ∈ ranges) ∨ ∀ first, c.space.firstPktNumSent = some first → n < first)
  acked : c.acksInPhase ≠ [] → c.space.getLargestAckedPkt.isSome = true

theorem initiateKeyUpdate_isOk : (c.initiateKeyUpdate derive multipath).isOk = c.keyUpdateAllowed multipath := by
  rw [Conn.initiateKeyUpdate]
  cases c.keyUpdateAllowed multipath <;> rfl

theorem PhaseNumbers.earned (h : PhaseNumbers c) (hknown : Known multipath c e) : Earned derive multipath c e := by
  cases e with
  | initiateKeyUpdate =>
    intro hconf hallowed
    rw [initiateKeyUpdate_isOk] at hallowed
    obtain ⟨largest, hlargest⟩ := isSome_iff_exists.mp (hknown hconf hallowed)
    rw [keyUpdateAllowed] at hallowed
    split at hallowed
    · cases hallowed
    obtain ⟨first, hfirst, hle⟩ := (any_eq_true _ _).mp hallowed
    have hle : first ≤ largest := (getLargestAckedPkt_eq_some.mp hlargest).1 ▸ of_decide_eq_true hle
    obtain ⟨hlt, -, hacked⟩ := h.largest largest hlargest
    refine ⟨largest, (h.sent first hfirst).2 largest hle hlt, hacked.resolve_right fun hbefore => ?_⟩
    exact absurd (hbefore first hfirst) (Nat.not_lt.mpr hle)
  | _ => exact trivial

theorem PhaseNumbers.known (h : PhaseNumbers c) (hearned : Earned derive multipath c e) : Known multipath c e := by
  cases e with
  | initiateKeyUpdate =>
    intro hconf hallowed
    obtain ⟨n, -, ranges, hranges, -⟩ := hearned hconf (initiateKeyUpdate_isOk.trans hallowed)
    exact h.acked (ne_nil_of_mem hranges)
  | _ => exact trivial

theorem phaseNumbers_new (key : K) (zeroRttKey : Option K) (inEarlyData : Bool) :
    PhaseNumbers (new key zeroRttKey inEarlyData) where
  oneRtt := fun h => absurd h Bool.false_ne_true
  sent := fun _ h => by cases h
  largest := fun n hn => by cases hn
  acked := fun h => absurd rfl h

variable (h : PhaseNumbers c)
include h

theorem PhaseNumbers.updateKey : PhaseNumbers (c.updateKey derive) where
  oneRtt := fun hsome => absurd hsome Bool.false_ne_true
  sent := fun _ hfirst => by cases hfirst
  largest := fun n hn => ⟨(h.largest n hn).1, (h.largest n hn).2.1, .inr fun first hfirst => by cases hfirst⟩
  acked := fun hne => absurd rfl hne

/-- The numbers that are received do not matter. -/
theorem PhaseNumbers.tryUpdateKey {attempt : Bool} : PhaseNumbers (c.tryUpdateKey derive attempt hdr full) := by
  have hkey : PhaseNumbers (if attempt then c.updateKey derive else c) := by
    split
    · exact h.updateKey
    · exact h
  rw [Conn.tryUpdateKey]
  generalize (if attempt then c.updateKey derive else c) = c1 at hkey ⊢
  have hfirst : PhaseNumbers (c1.setFirstRecv hdr) := by
    rw [setFirstRecv]
    split
    · exact { hkey with }
    · exact hkey
  rw [noteReceived]
  split
  · exact { hfirst with }
  · exact hfirst

theorem PhaseNumbers.recvPacket : PhaseNumbers (c.recvPacket derive multipath aeadOpen hdr payload framesOk) := by
  refine recvPacket_cases h (fun k attempt t _ => ?_) fun c full h => { h with }
  have ht : PhaseNumbers { c with tls := t } := { h with }
  exact ⟨ht, ht.tryUpdateKey⟩

theorem PhaseNumbers.sendPacket : PhaseNumbers c.sendPacket := by
  unfold Conn.sendPacket
  split
  · next hearly =>
    have hnone : ∀ first, c.space.firstPktNumSent ≠ some first := fun first hfirst => by
      have hfalse := h.oneRtt (hfirst ▸ rfl)
      rw [hearly] at hfalse
      cases hfalse
    refine ⟨h.oneRtt, fun first hfirst => absurd hfirst (hnone first), fun n hn => ?_, h.acked⟩
    obtain ⟨hlt, hbound, hacked⟩ := h.largest n hn
    exact ⟨Nat.lt_succ_of_lt hlt, hbound, hacked⟩
  rename_i hearly
  refine ⟨fun _ => (Bool.not_eq_true _).mp hearly, fun first hfirst => ?_, fun n hn => ?_, h.acked⟩
  · cases hold : c.space.firstPktNumSent with
    | none =>
      rw [hold] at hfirst
      cases hfirst
      refine ⟨Nat.le_succ _, fun n hge hlt => mem_append_right _ (mem_singleton.mpr ?_)⟩
      exact Nat.le_antisymm (Nat.lt_succ_iff.mp hlt) hge
    | some old =>
      rw [hold] at hfirst
      cases hfirst
      obtain ⟨hle, hsent⟩ := h.sent old hold
      refine ⟨Nat.le_succ_of_le hle, fun n hge hlt => ?_⟩
      rcases Nat.lt_succ_iff_lt_or_eq.mp hlt with hlt | rfl
      · exact mem_append_left _ (hsent n hge hlt)
      · exact mem_append_right _ (mem_singleton_self _)
  obtain ⟨hlt, hbound, hacked⟩ := h.largest n hn
  refine ⟨Nat.lt_succ_of_lt hlt, hbound, hacked.imp_right fun hbefore first hfirst => ?_⟩
  cases hold : c.space.firstPktNumSent with
  | none =>
    rw [hold] at hfirst
    cases hfirst
    exact hlt
  | some old =>
    rw [hold] at hfirst
    cases hfirst
    exact hbefore old hold

theorem PhaseNumbers.ackPackets {ranges : RangeSet} {largest : Nat} (hmax : ranges.max = some largest)
    (hbound : largest < 2 ^ 62) (hsent : ∀ n ∈ ranges, n < c.space.nextPktNum) :
    PhaseNumbers (c.ackPackets ranges largest) := by
  have hin : largest ∈ ranges := (RangeSet.max_eq_some hmax).1
  have hnum : (c.ackPackets ranges largest).space.largestAckedPkt < c.space.nextPktNum ∧
      (c.ackPackets ranges largest).space.largestAckedPkt < 2 ^ 62 ∧
      ((∃ r ∈ ranges :: c.acksInPhase, (c.ackPackets ranges largest).space.largestAckedPkt ∈ r) ∨
        ∀ first, c.space.firstPktNumSent = some first →
          (c.ackPackets ranges largest).space.largestAckedPkt < first) := by
    rcases c.space.updateLargestAcked_or largest with heq | ⟨heq, hne⟩
    · rw [show (c.ackPackets ranges largest).space.largestAckedPkt = largest from heq]
      exact ⟨hsent largest hin, hbound, .inl ⟨ranges, mem_cons_self, hin⟩⟩
    rw [show (c.ackPackets ranges largest).space.largestAckedPkt = c.space.largestAckedPkt from heq]
    obtain ⟨hlt, hbound, hacked⟩ := h.largest _ (getLargestAckedPkt_eq_some.mpr ⟨rfl, hne⟩)
    exact ⟨hlt, hbound, hacked.imp_left fun ⟨r, hr, hin⟩ => ⟨r, mem_cons_of_mem _ hr, hin⟩⟩
  refine ⟨h.oneRtt, h.sent, fun n hn => ?_, fun _ => ?_⟩
  · obtain ⟨rfl, -⟩ := getLargestAckedPkt_eq_some.mp hn
    exact hnum
  have hne : (c.ackPackets ranges largest).space.largestAckedPkt ≠ u64Max := by
    rw [u64Max]
    omega
  exact isSome_iff_exists.mpr ⟨_, getLargestAckedPkt_eq_some.mpr ⟨rfl, hne⟩⟩

theorem PhaseNumbers.step (hok : AcksSent c e) (hs : step derive multipath aeadOpen c e = some c') :
    PhaseNumbers c' := by
  cases e with
  | packetReceived hdr payload framesOk =>
    rw [Conn.step] at hs
    split at hs
    · cases hs
      exact h.recvPacket
    · cases hs
  | packetSent =>
    cases hs
    exact h.sendPacket
  | ackReceived ranges =>
    obtain ⟨largest, hmax, hs⟩ := bind_eq_some_iff.mp hs
    obtain ⟨hbound, ⟨⟩⟩ := ite_none_right_eq_some.mp hs
    exact h.ackPackets hmax hbound hok
  | initiateKeyUpdate =>
    exact initiateKeyUpdate_cases h h.updateKey hs
  | prevKeyDiscarded | handshakeConfirmed =>
    cases hs
    exact { h with }
  | earlyDataEnded =>
    cases hs
    exact { h with oneRtt := fun _ => rfl }

omit h

/-- In every run in which ACKs are for sent packets: updates are started only after an acknowledgement exactly if the
largest acknowledged number is known whenever one is allowed. -/
theorem update_earned_iff (key : K) (zeroRttKey : Option K) (inEarlyData : Bool) (events : List Event)
    (hsent : Along (step derive multipath aeadOpen) AcksSent (new key zeroRttKey inEarlyData) events) :
    Along (step derive multipath aeadOpen) (Earned derive multipath) (new key zeroRttKey inEarlyData) events ↔
      Along (step derive multipath aeadOpen) (Known multipath) (new key zeroRttKey inEarlyData) events := by
  have hstep : ∀ (P : Conn K → Event → Prop) (c : Conn K) (e : Event) (c' : Conn K), PhaseNumbers c →
      AcksSent c e ∧ P c e → Conn.step derive multipath aeadOpen c e = some c' → PhaseNumbers c' :=
    fun _ _ _ _ h hok hs => h.step hok.1 hs
  constructor
  · intro hearned
    exact of_invariant (fun _ _ h hok => h.known hok.2) (hstep _) (phaseNumbers_new key zeroRttKey inEarlyData)
      (hsent.and hearned)
  intro hknown
  exact of_invariant (fun _ _ h hok => h.earned hok.2) (hstep _) (phaseNumbers_new key zeroRttKey inEarlyData)
    (hsent.and hknown)

/-- Packet 0 is acknowledged before the update. -/
theorem update_earned_one : Along (step (· + 1) false fun _ _ payload => some payload) (Earned (· + 1) false)
    (new 0 none false) [.handshakeConfirmed, .packetSent, .ackReceived (RangeSet.empty.insert ⟨0, 1⟩),
      .initiateKeyUpdate] := by
  refine (update_earned_iff 0 none false _ ?_).mpr ?_
  · refine .cons trivial rfl (.cons trivial rfl ⟨fun n hn => ?_, fun _ _ => ⟨trivial, fun _ _ => trivial⟩⟩)
    exact (RangeSet.mem_insert.mp hn).elim (fun hn => absurd hn RangeSet.not_mem_empty) And.right
  refine .cons trivial rfl (.cons trivial rfl (.cons trivial rfl ⟨fun _ _ => ?_, fun _ _ => trivial⟩))
  decide +kernel

/-- Two updates without any ACK: the largest acknowledged number is `u64::MAX` until the first one. -/
theorem update_unearned : ∃ c c' : Conn Nat,
    run (step (· + 1) false fun _ _ payload => some payload) (new 0 none false)
      [.handshakeConfirmed, .packetSent] = some c ∧
    c.confirmed = true ∧ c.acksInPhase = [] ∧ (c.initiateKeyUpdate (· + 1) false).isOk = true ∧
    run (step (· + 1) false fun _ _ payload => some payload) c [.initiateKeyUpdate, .packetSent] = some c' ∧
    c'.acksInPhase = [] ∧ (c'.initiateKeyUpdate (· + 1) false).isOk = true :=
  ⟨_, _, rfl, rfl, rfl, by decide +kernel, rfl, by decide +kernel, by decide +kernel⟩

end Conn

end MoqQuic.L3.Tquic.KeyUpdate
