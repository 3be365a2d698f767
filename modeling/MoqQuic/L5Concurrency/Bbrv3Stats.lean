import MoqQuic.Core.Threads
import MoqQuic.L2Machine.Congestion.Bbrv3Stats

/-!
# Locks and channels of `BBRv3Stats`

The methods of `bbrv3_stats.go` as the instructions that threads interleave: the locks
of the mutex, what is done between them, and the reads of the pointer `b.stats` and of
the flag `b.statsEnabled`, which no lock protects. The values that a callback passes on
from other fields of the sender are arguments of the call.

Every method but two has the form lock, work, unlock. `Stop` gives the lock back before
it closes the channel and takes it again to clear the flag, so that two threads can come
between; and a `Start` after a `Stop` sets the flag but makes no new channel.
`OnBytesLost` begins with `Unlock`.

Results:
* `flow_method`, `flow_operation`: the code of every operation is well locked, that of
  `OnBytesLost` excepted.
* `exec_cases`: what an instruction can do to the channels.
* `disciplined_iff`: in every run, no lock is given back by a thread that does not hold
  it and no channel is closed twice exactly as long as `OnBytesLost` is not called, no
  `Stop` goes on to a closed channel, and no two come to the same open one.
* `unlock_and_close_faults`: runs with an unlock of a free mutex and with a second close.
-/
namespace MoqQuic.L5.Bbrv3Stats
open Threads L2.Congestion.Bbrv3 Option Function

/-! ## Code -/

/-- The number is that of the object. -/
inductive Instr
  | lock (o : Nat)
  | unlock (o : Nat)
  | rLock (o : Nat)
  | rUnlock (o : Nat)
  | record (o : Nat) (r : Record)
  | addLost (o : Nat) (bytes : Nat)
  | read (o : Nat)
  | startLogger (o : Nat)
  | checkRunning (o : Nat)
  | close (o : Nat)
  | clearRunning (o : Nat)
  | call (method : Method)
  | callsIfEnabled (methods : List Method)
  | callsIfSome (methods : List Method)
  | newObject (enabled : Bool)
  | newStats (enabled : Bool)
  | dropStats
  | logger (o : Nat)

/-- mirrors bbrv3_stats.go:107-357. In `Stop`, what comes after `loggerRunning` was found to be
set is brought in by `checkRunning`. -/
def methodCode (o : Nat) : Method → List Instr
  | .start => [.lock o, .startLogger o, .unlock o]
  | .stop => [.lock o, .checkRunning o, .unlock o]
  | .logStats | .getStats => [.rLock o, .read o, .rUnlock o]
  | .record r => [.lock o, .record o r, .unlock o]
  | .onBytesLost bytes => [.unlock o, .lock o, .addLost o bytes, .unlock o]

/-- `waiting` has the objects of the goroutines that have not begun yet. -/
structure Shared where
  memory : Memory
  waiting : List Nat := []

namespace Shared

def isClosed (s : Shared) (o : Nat) : Bool := (s.memory.objects[o]?.map Object.closed).getD false

def isRunning (s : Shared) (o : Nat) : Bool := (s.memory.objects[o]?.map Object.loggerRunning).getD false

def modify (s : Shared) (o : Nat) (f : Object → Object) : Shared := { s with memory := s.memory.modify o f }

end Shared

/-- The instructions other than those of the mutex. `none`: `close` of a closed channel and the call of a method on a
nil pointer end the program, and a logger waits until its channel is closed. -/
def exec (s : Shared) : Instr → Option (Shared × List Instr)
  | .lock _ | .unlock _ | .rLock _ | .rUnlock _ => none
  | .record o r => some ({ s with memory := s.memory.record o r }, [])
  | .addLost o bytes => some (s.modify o fun x => { x with stats := x.stats.onBytesLost bytes }, [])
  | .read _ => some (s, [])
  | .startLogger o =>
    let memory := s.memory.startLogger o
    some ({ memory, waiting := s.waiting ++ memory.loggers.drop s.memory.loggers.length }, [])
  | .checkRunning o => some (s, if s.isRunning o then [.unlock o, .close o, .lock o, .clearRunning o] else [])
  | .close o =>
    if o < s.memory.objects.length ∧ s.isClosed o = false then some (s.modify o ({ · with closed := true }), [])
    else none
  | .clearRunning o => some (s.modify o ({ · with loggerRunning := false }), [])
  | .call method => s.memory.stats.map fun o => (s, methodCode o method)
  | .callsIfEnabled methods =>
    some (s, if s.memory.statsEnabled && s.memory.stats.isSome then methods.map .call else [])
  | .callsIfSome methods => some (s, if s.memory.stats.isSome then methods.map .call else [])
  | .newObject enabled => some ({ s with memory.objects := s.memory.objects ++ [{ enabled }] }, [])
  | .newStats enabled => some ({ s with memory := s.memory.newStats enabled }, [])
  | .dropStats => some ({ s with memory := s.memory.dropStats }, [])
  | .logger o => if s.isClosed o then some (s, []) else none

/-- Where an instruction may stand. -/
def kind : Instr → Kind Nat
  | .lock o => .acquire o .write
  | .unlock o => .release o .write
  | .rLock o => .acquire o .read
  | .rUnlock o => .release o .read
  | .record o _ | .addLost o _ | .startLogger o | .checkRunning o | .clearRunning o => .inner (some (o, .write))
  | .read o => .inner (some (o, .read))
  | .close _ | .call _ | .callsIfEnabled _ | .callsIfSome _ | .newObject _ | .newStats _ | .dropStats | .logger _ =>
    .inner none

def machine : Machine Nat Shared Instr := { kind, exec }

/-- What a thread can be asked to do: a method of a `BBRv3Stats`, its constructor, or a method of the sender, with the
sender's fields as the method finds them. -/
inductive Operation
  | stats (o : Nat) (method : Method)
  | newBBRv3Stats (enabled : Bool)
  | setStatsConfig (b : Sender) (config : Option Bool)
  | getStats
  | stopStats
  | onPacketSent (b : Sender) (bytes bytesInFlight : Nat)
  | onPacketAcked (b : Sender) (ackedBytes priorInFlight : Nat) (rtt : Option Int)
  | onCongestionEvent (b : Sender) (lostBytes priorInFlight : Nat)
  | onRetransmissionTimeout (packetsRetransmitted : Bool)

/-- A nil configuration is `none`. mirrors bbrv3.go:310-344 and :1217-1325 -/
def Operation.code : Operation → List Instr
  | .stats o method => methodCode o method
  | .newBBRv3Stats enabled => [.newObject enabled]
  | .setStatsConfig b config =>
    .callsIfSome [.stop] :: if config = some true then .newStats true :: b.configuredCalls.map .call else [.dropStats]
  | .getStats => [.callsIfSome [.getStats]]
  | .stopStats => [.callsIfSome [.stop]]
  | .onPacketSent b bytes bytesInFlight => [.callsIfEnabled (b.sentCalls bytes bytesInFlight)]
  | .onPacketAcked b ackedBytes priorInFlight rtt => [.callsIfEnabled (b.ackedCalls ackedBytes priorInFlight rtt)]
  | .onCongestionEvent b lostBytes priorInFlight => [.callsIfEnabled (b.lostCalls lostBytes priorInFlight)]
  | .onRetransmissionTimeout packetsRetransmitted =>
    if packetsRetransmitted then [.callsIfEnabled Sender.timeoutCalls, .dropStats] else []

/-! ## Runs -/

section Runs

variable {T : Type} [DecidableEq T]

abbrev St (T : Type) := Config T Nat Shared Instr

/-- `tick`: the ticker of a logger fires. `go`: an idle thread takes up a goroutine. -/
inductive Label (T : Type)
  | call (t : T) (op : Operation)
  | step (t : T)
  | tick (t : T)
  | go (t : T) (o : Nat)

/-- A method is called on an object that exists. -/
def Operation.callable (s : Shared) : Operation → Bool
  | .stats o _ => o < s.memory.objects.length
  | _ => true

def step (s : St T) : Label T → Option (St T)
  | .call t op => if (s.code t).isEmpty ∧ op.callable s.shared then some (s.setCode t op.code) else none
  | .step t => machine.step s t
  | .tick t =>
    match s.code t with
    | .logger o :: c => some (s.setCode t (methodCode o .logStats ++ .logger o :: c))
    | _ => none
  | .go t o =>
    if (s.code t).isEmpty ∧ o ∈ s.shared.waiting then
      some ({ s with shared.waiting := s.shared.waiting.erase o }.setCode t [.logger o])
    else none

/-- A new sender, with statistics if `enabled`. -/
def start (T : Type) (size : Nat) (now : Int) (enabled : Bool) : St T :=
  let memory := ((Monitored.newBBRv3SenderWithStats size now enabled).map Monitored.memory).getD {}
  { shared := { memory, waiting := memory.loggers }, locks := fun _ => {}, code := fun _ => [] }

/-- No thread is about to give back a lock it does not hold, or to close a closed channel. -/
structure Disciplined (s : St T) : Prop where
  unlock : ∀ t o c, s.code t = .unlock o :: c → (s.locks o).Holds t .write
  rUnlock : ∀ t o c, s.code t = .rUnlock o :: c → (s.locks o).Holds t .read
  close : ∀ t o c, s.code t = .close o :: c → s.shared.isClosed o = false

/-- The thread with this code closes the channel of `o` next. -/
def atClose (o : Nat) : List Instr → Bool
  | .close o' :: _ => o' = o
  | _ => false

/-- `OnBytesLost` is not called; a `Stop` that found the logger running gives back the lock only while the channel is
open, and closes it only while no other `Stop` has come to the same point. -/
def Careful (s : St T) : Label T → Prop
  | .call _ (.stats _ (.onBytesLost _)) => False
  | .step t =>
    match s.code t with
    | .call (.onBytesLost _) :: _ => False
    | .unlock _ :: .close o :: _ => s.shared.isClosed o = false
    | .close o :: _ => ∀ t', t' ≠ t → atClose o (s.code t') = false
    | _ => True
  | _ => True

/-! ## Locks -/

theorem flow_method (o : Nat) {m : Method} (hm : ∀ bytes, m ≠ .onBytesLost bytes) :
    machine.flow none (methodCode o m) = some none := by
  cases m with
  | onBytesLost bytes => exact absurd rfl (hm bytes)
  | _ => simp [methodCode, machine, Machine.flow, Machine.after, kind]

theorem flow_calls (ms : List Method) : machine.flow none (ms.map .call) = some none := by
  induction ms with
  | nil => rfl
  | cons m ms ih => exact (flow_inner _ rfl).trans ih

theorem flow_operation {op : Operation} (hop : ∀ o bytes, op ≠ .stats o (.onBytesLost bytes)) :
    machine.flow none op.code = some none := by
  cases op with
  | stats o m =>
    apply flow_method
    rintro bytes rfl
    exact hop o bytes rfl
  | setStatsConfig b config =>
    simp only [Operation.code]
    split
    · exact flow_calls b.configuredCalls
    · rfl
  | onRetransmissionTimeout r =>
    cases r with
    | true | false => rfl
  | _ => rfl

variable {k : List Instr} {i : Instr}

/-- What an instruction brings in leaves the thread with what it held. -/
theorem flow_exec {needs : Option (Nat × Mode)} (hi : ∀ bytes, i ≠ .call (.onBytesLost bytes))
    (hkind : kind i = .inner needs) (h : exec s i = some (s', k)) : machine.flow needs k = some needs := by
  cases i with
  | checkRunning o =>
    cases hkind
    cases h
    split
    · simp [machine, Machine.flow, Machine.after, kind]
    · rfl
  | call m =>
    cases hkind
    obtain ⟨o, -, heq⟩ := map_eq_some_iff.mp h
    cases heq
    apply flow_method
    rintro bytes rfl
    exact hi bytes rfl
  | callsIfEnabled ms | callsIfSome ms =>
    cases hkind
    cases h
    split
    · exact flow_calls ms
    · rfl
  | close o | logger o =>
    simp only [exec, ite_none_right_eq_some] at h
    obtain ⟨-, h⟩ := h
    cases h
    rfl
  | lock o | unlock o | rLock o | rUnlock o => cases h
  | _ =>
    cases h
    rfl

/-! ## Channels -/

def NoClose (c : List Instr) : Prop := ∀ o, .close o ∉ c

/-- A channel is closed right after the lock of its object was given back. -/
inductive Shape : List Instr → Prop
  | plain {c : List Instr} (h : NoClose c) : Shape c
  | leaving {o : Nat} {c : List Instr} (h : NoClose c) : Shape (.unlock o :: .close o :: c)
  | closing {o : Nat} {c : List Instr} (h : NoClose c) : Shape (.close o :: c)

theorem NoClose.append {c c' : List Instr} (h : NoClose c) (h' : NoClose c') : NoClose (c ++ c') :=
  fun o hmem => (List.mem_append.mp hmem).elim (h o) (h' o)

theorem noClose_method (o : Nat) (m : Method) : NoClose (methodCode o m) := by
  intro o'
  cases m <;> simp [methodCode]

theorem noClose_calls (ms : List Method) : NoClose (ms.map .call) := by
  intro o
  simp

theorem noClose_operation (op : Operation) : NoClose op.code := by
  cases op with
  | stats o m => exact noClose_method o m
  | setStatsConfig b config =>
    simp only [Operation.code]
    intro o
    split <;> simp
  | onRetransmissionTimeout r =>
    intro o
    cases r <;> simp [Operation.code]
  | _ =>
    intro o
    simp [Operation.code]

/-- Only the check of `Stop` brings in a `close`. -/
theorem exec_noClose (h : exec s i = some (s', k)) :
    NoClose k ∨ ∃ o, k = [.unlock o, .close o, .lock o, .clearRunning o] := by
  have hnil : NoClose [] := fun _ => List.not_mem_nil
  cases i with
  | checkRunning o =>
    cases h
    split
    · exact .inr ⟨o, rfl⟩
    · exact .inl hnil
  | call m =>
    obtain ⟨o, -, heq⟩ := map_eq_some_iff.mp h
    cases heq
    exact .inl (noClose_method o m)
  | callsIfEnabled ms | callsIfSome ms =>
    cases h
    split
    · exact .inl (noClose_calls ms)
    · exact .inl hnil
  | close o | logger o =>
    simp only [exec, ite_none_right_eq_some] at h
    obtain ⟨-, h⟩ := h
    cases h
    exact .inl hnil
  | lock o | unlock o | rLock o | rUnlock o => cases h
  | _ =>
    cases h
    exact .inl hnil

theorem isClosed_modify (s : Shared) (o : Nat) {f : Object → Object} (hf : ∀ x, (f x).closed = x.closed) (o' : Nat) :
    (s.modify o f).isClosed o' = s.isClosed o' := by
  unfold Shared.isClosed
  simp only [Shared.modify, Memory.modify, List.getElem?_modify]
  cases s.memory.objects[o']? with
  | none => rfl
  | some x =>
    by_cases ho : o = o'
    · simp [ho, hf]
    · simp [ho]

theorem isClosed_append (s : Shared) {memory : Memory} {enabled : Bool}
    (h : memory.objects = s.memory.objects ++ [({ enabled } : Object)]) (o : Nat) :
    Shared.isClosed { s with memory } o = s.isClosed o := by
  unfold Shared.isClosed
  rw [h, List.getElem?_append]
  split
  · rfl
  rename_i hge
  rw [List.getElem?_eq_none (not_lt.mp hge)]
  cases hn : o - s.memory.objects.length with
  | zero | succ n => rfl

theorem isClosed_startLogger (s : Shared) (o : Nat) (waiting : List Nat) (o' : Nat) :
    Shared.isClosed { memory := s.memory.startLogger o, waiting } o' = s.isClosed o' := by
  unfold Memory.startLogger
  split
  · rfl
  split
  · rfl
  refine isClosed_modify s o ?_ o'
  exact fun _ => rfl

/-- Only `close` closes a channel. -/
theorem exec_isClosed (hi : ∀ o, i ≠ .close o) (h : exec s i = some (s', k)) (o : Nat) :
    s'.isClosed o = s.isClosed o := by
  cases i with
  | close o' => exact absurd rfl (hi o')
  | record o' r | addLost o' bytes | clearRunning o' =>
    cases h
    refine isClosed_modify s o' ?_ o
    exact fun _ => rfl
  | startLogger o' =>
    cases h
    exact isClosed_startLogger s o' _ o
  | newObject enabled | newStats enabled =>
    cases h
    exact isClosed_append s rfl o
  | call m =>
    obtain ⟨o', -, heq⟩ := map_eq_some_iff.mp h
    cases heq
    rfl
  | logger o' =>
    simp only [exec, ite_none_right_eq_some] at h
    obtain ⟨-, h⟩ := h
    cases h
    rfl
  | lock o' | unlock o' | rLock o' | rUnlock o' => cases h
  | _ =>
    cases h
    rfl

theorem exec_close {o : Nat} (h : exec s (.close o) = some (s', k)) :
    k = [] ∧ s'.isClosed o = true ∧ ∀ o', o' ≠ o → s'.isClosed o' = s.isClosed o' := by
  simp only [exec, ite_none_right_eq_some] at h
  obtain ⟨⟨hlt, -⟩, h⟩ := h
  cases h
  refine ⟨rfl, ?_, fun o' hne => ?_⟩
  · simp [Shared.isClosed, Shared.modify, Memory.modify, hlt]
  unfold Shared.isClosed
  simp only [Shared.modify, Memory.modify, List.getElem?_modify]
  cases s.memory.objects[o']? with
  | none => rfl
  | some x => simp [hne.symm]

/-! ## The invariant -/

structure Inv (s : St T) : Prop where
  wellLocked : WellLocked machine s
  shape : ∀ t, Shape (s.code t)
  closing : ∀ t o c, s.code t = .close o :: c → s.shared.isClosed o = false

variable {s s' : St T} {t : T}

omit [DecidableEq T] in
theorem Inv.disciplined (h : Inv s) : Disciplined s where
  unlock _ _ _ hcode := h.wellLocked.holds_of_release hcode rfl
  rUnlock _ _ _ hcode := h.wellLocked.holds_of_release hcode rfl
  close := h.closing

variable {c : List Instr}

/-- One thread gets other code; what comes first in it is not a `close`, or closes an open channel. -/
theorem Inv.setCode (h : Inv s) (hcode : s'.code = Function.update s.code t c) (hlocked : WellLocked machine s')
    (hshape : Shape c) (hclosing : ∀ o r, c = .close o :: r → s'.shared.isClosed o = false)
    (hother : ∀ t' o r, t' ≠ t → s.code t' = .close o :: r → s'.shared.isClosed o = s.shared.isClosed o) : Inv s' := by
  refine ⟨hlocked, fun t' => ?_, fun t' o r hr => ?_⟩
  · rw [hcode]
    by_cases ht : t' = t
    · subst ht
      rw [update_self]
      exact hshape
    · rw [update_of_ne ht]
      exact h.shape t'
  rw [hcode] at hr
  by_cases ht : t' = t
  · subst ht
    rw [update_self] at hr
    exact hclosing o r hr
  rw [update_of_ne ht] at hr
  rw [hother t' o r ht hr]
  exact h.closing t' o r hr

theorem NoClose.ne_close {r : List Instr} {o : Nat} (h : NoClose c) : c ≠ .close o :: r := by
  rintro rfl
  exact h o List.mem_cons_self

/-- New code in front of the code of a thread that holds nothing. -/
theorem Inv.enter (h : Inv s) (hc : machine.flow none c = some none) (hno : NoClose c)
    (hfree : machine.Free (s.code t)) (hrest : NoClose (s.code t)) : Inv (s.setCode t (c ++ s.code t)) := by
  refine h.setCode rfl (h.wellLocked.enter hc hfree) (.plain (hno.append hrest)) ?_ fun _ _ _ _ _ => rfl
  intro o r heq
  exact absurd heq (hno.append hrest).ne_close

omit [DecidableEq T] in
theorem Careful.not_onBytesLost (h : Careful s (.step t)) {bytes : Nat}
    (hcode : s.code t = .call (.onBytesLost bytes) :: c) : False := by
  simp only [Careful, hcode] at h

omit [DecidableEq T] in
theorem Careful.isClosed (h : Careful s (.step t)) {o o' : Nat} (hcode : s.code t = .unlock o' :: .close o :: c) :
    s.shared.isClosed o = false := by
  simpa only [Careful, hcode] using h

omit [DecidableEq T] in
theorem Careful.alone (h : Careful s (.step t)) {o : Nat} (hcode : s.code t = .close o :: c) :
    ∀ t', t' ≠ t → atClose o (s.code t') = false := by
  simpa only [Careful, hcode] using h

theorem Inv.machineStep (h : Inv s) (hok : Careful s (.step t)) (hs : machine.step s t = some s') : Inv s' := by
  have hlocked : WellLocked machine s' := by
    refine h.wellLocked.step hs fun i c needs r hcode hkind hr => ?_
    refine flow_exec (fun bytes heq => ?_) hkind hr
    subst heq
    exact hok.not_onBytesLost hcode
  obtain ⟨i, c, hcode, hcases⟩ := Machine.step_cases hs
  have hshape := h.shape t
  rw [hcode] at hshape
  obtain ⟨hkind, hshared, hcode'⟩ | ⟨needs, ⟨shared, k⟩, hkind, hr, -, hshared, hcode'⟩ := hcases
  · cases hshape with
    | plain hno =>
      have hrest : NoClose c := fun o hmem => hno o (List.mem_cons_of_mem i hmem)
      exact h.setCode hcode' hlocked (.plain hrest) (fun o r heq => absurd heq hrest.ne_close)
        fun _ _ _ _ _ => by rw [hshared]
    | @leaving o r hno =>
      refine h.setCode hcode' hlocked (.closing hno) (fun o' r' heq => ?_) fun _ _ _ _ _ => by rw [hshared]
      cases heq
      rw [hshared]
      exact hok.isClosed hcode
    | closing hno => exact absurd rfl (hkind none)
  cases hshape with
  | plain hno =>
    have hrest : NoClose c := fun o hmem => hno o (List.mem_cons_of_mem i hmem)
    have hclosed := exec_isClosed (fun o heq => hno o (heq ▸ List.mem_cons_self)) hr
    obtain hk | ⟨o, rfl⟩ := exec_noClose hr
    · refine h.setCode hcode' hlocked (.plain (hk.append hrest))
        (fun o r heq => absurd heq (hk.append hrest).ne_close) fun _ o _ _ _ => ?_
      rw [hshared]
      exact hclosed o
    refine h.setCode hcode' hlocked (.leaving fun o' hmem => ?_) (fun o' r heq => nomatch heq)
      fun _ o' _ _ _ => ?_
    · have hmem' : Instr.close o' ∈ c := by simpa using hmem
      exact hrest o' hmem'
    rw [hshared]
    exact hclosed o'
  | leaving hno => cases hkind
  | @closing o _ hno =>
    obtain ⟨rfl, -, hother⟩ := exec_close hr
    refine h.setCode hcode' hlocked (.plain hno) (fun o' r heq => absurd heq hno.ne_close) ?_
    intro t' o' r ht hr'
    rw [hshared]
    apply hother
    rintro rfl
    have := hok.alone hcode t' ht
    rw [hr'] at this
    simp [atClose] at this

/-- A step that meets the condition. -/
theorem Inv.step {l : Label T} (h : Inv s) (hok : Careful s l) (hs : step s l = some s') : Inv s' := by
  cases l with
  | call t op =>
    simp only [Bbrv3Stats.step, ite_none_right_eq_some, Option.some.injEq, List.isEmpty_iff] at hs
    obtain ⟨⟨hidle, -⟩, rfl⟩ := hs
    have hop : ∀ o bytes, op ≠ .stats o (.onBytesLost bytes) := by
      rintro o bytes rfl
      exact hok
    have henter := h.enter (t := t) (flow_operation hop) (noClose_operation op) (hidle ▸ free_nil)
      (by rw [hidle]; exact fun _ => List.not_mem_nil)
    rwa [hidle, List.append_nil] at henter
  | step t => exact h.machineStep hok hs
  | tick t =>
    simp only [Bbrv3Stats.step] at hs
    split at hs
    · rename_i o c hcode
      cases hs
      have hno : NoClose (s.code t) := by
        have hshape := h.shape t
        rw [hcode] at hshape ⊢
        cases hshape with
        | plain hno => exact hno
      rw [← hcode]
      exact h.enter (flow_method o (by simp)) (noClose_method o _) (by rw [hcode]; exact free_cons rfl) hno
    · cases hs
  | go t o =>
    simp only [Bbrv3Stats.step, ite_none_right_eq_some, Option.some.injEq, List.isEmpty_iff] at hs
    obtain ⟨⟨hidle, -⟩, rfl⟩ := hs
    have hno : NoClose [.logger o] := fun _ => by simp
    have henter := h.enter (t := t) (c := [.logger o]) rfl hno (hidle ▸ free_nil)
      (by rw [hidle]; exact fun _ => List.not_mem_nil)
    rw [hidle] at henter
    exact { henter with }

omit [DecidableEq T] in
theorem inv_start (size : Nat) (now : Int) (enabled : Bool) : Inv (start T size now enabled) where
  wellLocked := ⟨fun _ => none, ⟨fun l t mode => by cases mode <;> simp [start, RWLock.Holds], fun _ => List.nodup_nil⟩,
    fun _ => rfl⟩
  shape _ := .plain fun _ => List.not_mem_nil
  closing _ _ _ hcode := nomatch hcode

/-- A step that does not meet the condition leaves a thread before a fault. -/
theorem careful_of_disciplined {l : Label T} (h : Inv s) (hs : step s l = some s') (hd : Disciplined s') :
    Careful s l := by
  cases l with
  | call t op =>
    cases op with
    | stats o m =>
      cases m with
      | onBytesLost bytes =>
        simp only [Bbrv3Stats.step, ite_none_right_eq_some, Option.some.injEq, List.isEmpty_iff] at hs
        obtain ⟨⟨hidle, -⟩, rfl⟩ := hs
        exact h.wellLocked.not_holds (hidle ▸ free_nil) o .write (hd.unlock t o _ (update_self ..))
      | _ => trivial
    | _ => trivial
  | step t =>
    obtain ⟨i, c, hcode, hcases⟩ := Machine.step_cases hs
    simp only [Careful]
    split
    · rename_i bytes _ hcall
      cases hcode.symm.trans hcall
      obtain ⟨hkind, -⟩ | ⟨needs, r, -, hr, hlocks, -, hcode'⟩ := hcases
      · exact hkind none rfl
      obtain ⟨o, -, rfl⟩ := map_eq_some_iff.mp hr
      have hhead : s'.code t = .unlock o :: [.lock o, .addLost o bytes, .unlock o] ++ c := by
        rw [hcode', update_self]
        rfl
      have hholds := hd.unlock t o _ hhead
      rw [hlocks] at hholds
      exact h.wellLocked.not_holds (by rw [hcode]; exact free_cons rfl) o .write hholds
    · rename_i o' o c' hclose
      cases hcode.symm.trans hclose
      obtain ⟨-, hshared, hcode'⟩ | ⟨needs, r, hkind, -⟩ := hcases
      · rw [← hshared]
        exact hd.close t o c' (by rw [hcode', update_self])
      · cases hkind
    · rename_i o c' hclose
      cases hcode.symm.trans hclose
      obtain ⟨hkind, -⟩ | ⟨needs, r, -, hr, -, hshared, hcode'⟩ := hcases
      · exact absurd rfl (hkind none)
      intro t' ht
      obtain ⟨-, htrue, -⟩ := exec_close hr
      rw [Bool.eq_false_iff]
      intro hat
      unfold atClose at hat
      split at hat
      · rename_i o'' r' hr'
        rw [decide_eq_true_eq] at hat
        subst hat
        have hfalse := hd.close t' o'' r' (by rw [hcode', update_of_ne ht, hr'])
        rw [hshared, htrue] at hfalse
        cases hfalse
      · cases hat
    · trivial
  | tick t | go t o => trivial

/-- In every interleaving, no lock is given back by a thread that does not hold it and no channel is closed twice
exactly as long as every step meets the condition. -/
theorem disciplined_iff (size : Nat) (now : Int) (enabled : Bool) {ls : List (Label T)} {s : St T}
    (hr : LTS.run step (start T size now enabled) ls = some s) :
    LTS.Ensures step (fun _ s => Disciplined s) (start T size now enabled) ls ↔
      LTS.Along step Careful (start T size now enabled) ls := by
  have hpost : ∀ (s : St T) l s', Inv s → step s l = some s' → (Disciplined s' ↔ Careful s l) := by
    intro s l s' h hs
    exact ⟨careful_of_disciplined h hs, fun hok => (h.step hok hs).disciplined⟩
  exact LTS.ensures_iff_along hpost (fun _ _ _ h hok hs => h.step hok hs) (inv_start size now enabled) hr

end Runs

/-! ## Runs with and without faults -/

/-- The logger writes a line while another thread begins to stop it. -/
def stoppedOnce : List (Label Bool) :=
  [.go true 0, .tick true, .step true, .call false .stopStats, .step false, .step false, .step true, .step true,
    .step false, .step false, .step false, .step false, .step true, .step false, .step false, .step false]

theorem disciplined_iff_stoppedOnce :
    LTS.Ensures step (fun _ s => Disciplined s) (start Bool 1200 0 true) stoppedOnce ∧
      ∃ s, LTS.run step (start Bool 1200 0 true) stoppedOnce = some s ∧ s.shared.isClosed 0 = true ∧
        s.shared.isRunning 0 = false ∧ ∀ t, (s.code t).isEmpty = true := by
  refine ⟨(disciplined_iff 1200 0 true rfl).mpr ?_, _, rfl, rfl, rfl, by decide +kernel⟩
  have halone : ∀ {s : St Bool}, atClose 0 (s.code true) = false →
      ∀ t', t' ≠ false → atClose 0 (s.code t') = false := by
    intro s h t' ht
    rwa [Bool.eq_true_of_not_eq_false ht]
  repeat apply LTS.Along.cons (by first | trivial | rfl | exact halone rfl) rfl
  trivial

/-- One thread stops, starts and begins to stop the logger. -/
def stopStartStop : List (Label Unit) :=
  [.call () (.stats 0 .stop), .step (), .step (), .step (), .step (), .step (), .step (), .step (),
    .call () (.stats 0 .start), .step (), .step (), .step (),
    .call () (.stats 0 .stop), .step (), .step (), .step ()]

/-- A loss is reported to a sender with statistics: `OnBytesLost` unlocks a mutex that nobody holds. And the second
`Stop` of one logger closes its channel again. -/
theorem unlock_and_close_faults : (∃ s, LTS.run step (start Unit 1200 0 true)
        [.call () (.onCongestionEvent (Sender.new 1200 0) 1200 1200), .step (), .step ()] = some s ∧ ¬ Disciplined s) ∧
    ∃ s, LTS.run step (start Unit 1200 0 true) stopStartStop = some s ∧ ¬ Disciplined s := by
  refine ⟨⟨_, rfl, fun h => ?_⟩, _, rfl, fun h => ?_⟩
  · exact absurd (h.unlock () 0 _ rfl) (by decide +kernel)
  · exact absurd (h.close () 0 _ rfl) (by decide +kernel)

end MoqQuic.L5.Bbrv3Stats
