import MoqQuic.Core.LTS
import MoqQuic.L3Protocol.Tquic.StreamMap

/-!
# The next stream id of an endpoint (`connection/stream.rs`)

`get_or_create` moves the counter for the endpoint's own streams of a type whenever it
creates a stream of that type, also one of the peer. The map is given with each call,
since streams and limits change in between. The counters do not saturate: a type has at
most `2 ^ 61` streams.

Results:
* `next_ids_iff`: the counters name new streams of the endpoint exactly if no stream of
  the peer is created above them.
* `peer_stream_moves_counter`: a client that is to open a stream of the server.
-/
namespace MoqQuic.L3.Tquic
open LTS

/-- `opened` is not in the source: the ids of all streams that were created. -/
structure StreamIds where
  nextStreamIdBidi : Nat
  nextStreamIdUni : Nat
  opened : List Nat

/-- A call of `get_or_create`. -/
structure CreateCall (isServer : Bool) where
  map : StreamMap
  role : map.isServer = isServer
  id : Nat
  loc : Bool

namespace StreamIds

variable {isServer : Bool} {s : StreamIds} {c : CreateCall isServer}

/-- mirrors :181-182 -/
def new (isServer : Bool) : StreamIds := ⟨if isServer then 1 else 0, if isServer then 3 else 2, []⟩

def next (s : StreamIds) (bidi : Bool) : Nat := if bidi then s.nextStreamIdBidi else s.nextStreamIdUni

/-- No stream with the id is there or was closed, `loc` says whose it is, and the limit of its type leaves room. -/
def creates (c : CreateCall isServer) : Bool :=
  c.id ≤ vintMax && (c.map.streams.find c.id).isNone && !c.map.isClosed c.id && c.loc == isLocal c.id isServer &&
    max (c.map.limit c.id).opened (c.id / 4 + 1) ≤ (c.map.limit c.id).maxStreams

/-- These are the checks of `get_or_create`. -/
theorem creates_iff : creates c = true ↔
    c.map.streams.find c.id = none ∧ (c.map.getOrCreate c.id c.loc).isOk = true := by
  rw [creates, StreamMap.getOrCreate, StreamLimit.check, c.role]
  cases c.map.streams.find c.id with
  | some stream => simp
  | none => grind [Except.toBool]

/-- mirrors :638-707 -/
def step (s : StreamIds) (c : CreateCall isServer) : StreamIds :=
  if !creates c then s
  else if isBidi c.id then ⟨max s.nextStreamIdBidi c.id + 4, s.nextStreamIdUni, c.id :: s.opened⟩
  else ⟨s.nextStreamIdBidi, max s.nextStreamIdUni c.id + 4, c.id :: s.opened⟩

/-- The counters name new streams of the endpoint, which `stream_bidi_new` and `stream_uni_new` can only fail to create
because of a limit: they ignore `Done`. -/
def Fresh (isServer : Bool) (s : StreamIds) : Prop :=
  ∀ bidi, isLocal (s.next bidi) isServer = true ∧ isBidi (s.next bidi) = bidi ∧ s.next bidi ∉ s.opened ∧
    ∀ (m : StreamMap) e, m.isServer = isServer → m.getOrCreate (s.next bidi) true = .error e →
      e = .done ∨ e = .streamLimitError ∨ vintMax < s.next bidi

/-- If the call creates a stream of the peer, it is below the counter of its type. -/
def Below (s : StreamIds) (c : CreateCall isServer) : Prop :=
  creates c = true → isLocal c.id isServer = false → c.id < s.next (isBidi c.id)

/-- The counters are of the right class and above all streams of their type. -/
def Own (isServer : Bool) (s : StreamIds) : Prop :=
  ∀ bidi, isLocal (s.next bidi) isServer = true ∧ isBidi (s.next bidi) = bidi ∧
    ∀ id ∈ s.opened, isBidi id = bidi → id < s.next bidi

theorem isLocal_add_four (id : Nat) : isLocal (id + 4) isServer = isLocal id isServer := by
  rw [isLocal, isLocal, show (id + 4) % 2 = id % 2 by omega]

theorem isBidi_add_four (id : Nat) : isBidi (id + 4) = isBidi id := by
  rw [isBidi, isBidi, show (id + 4) / 2 % 2 = id / 2 % 2 by omega]

theorem Own.fresh (h : Own isServer s) : Fresh isServer s := by
  intro bidi
  obtain ⟨hl, hb, ho⟩ := h bidi
  refine ⟨hl, hb, fun hm => Nat.lt_irrefl _ (ho _ hm hb), fun m e hm he => ?_⟩
  unfold StreamMap.getOrCreate StreamLimit.check at he
  rw [hm, hl] at he
  grind

theorem step_next (hc : creates c = true) (bidi : Bool) :
    (step s c).next bidi = if isBidi c.id = bidi then max (s.next bidi) c.id + 4 else s.next bidi := by
  cases bidi <;> cases hb : isBidi c.id <;> simp [step, hc, hb, next]

theorem step_opened (hc : creates c = true) : (step s c).opened = c.id :: s.opened := by
  cases hb : isBidi c.id <;> simp [step, hc, hb]

theorem Own.step (h : Own isServer s) (hb : Below s c) : Own isServer (s.step c) := by
  cases hc : creates c with
  | false => rwa [StreamIds.step, hc]
  | true =>
    intro bidi
    obtain ⟨hl, hn, ho⟩ := h bidi
    rw [step_next hc, step_opened hc]
    split
    next hbidi =>
      -- The larger one of counter and id is of the endpoint, as a stream of the peer is below.
      have hmax : isLocal (max (s.next bidi) c.id) isServer = true ∧ isBidi (max (s.next bidi) c.id) = bidi := by
        have := hb hc
        grind
      rw [isLocal_add_four, isBidi_add_four]
      grind
    next hbidi => grind

theorem Own.fresh_iff (h : Own isServer s) : Fresh isServer (s.step c) ↔ Below s c := by
  refine ⟨fun hf hc hloc => ?_, fun hb => (h.step hb).fresh⟩
  -- Otherwise the counter is of the class of the peer's stream.
  by_contra hle
  have hl := (hf (isBidi c.id)).1
  rw [step_next hc, if_pos rfl, max_eq_right (Nat.le_of_not_lt hle), isLocal_add_four, hloc] at hl
  cases hl

theorem own_new (isServer : Bool) : Own isServer (new isServer) := by
  intro bidi
  cases isServer <;> cases bidi <;> simp [new, next, isLocal, isBidi]

theorem next_ids_iff (isServer : Bool) (calls : List (CreateCall isServer)) :
    Fresh isServer (new isServer) ∧
      (Along (fun s c => some (step s c)) (fun s c => Fresh isServer (s.step c)) (new isServer) calls ↔
        Along (fun s c => some (step s c)) Below (new isServer) calls) := by
  refine ⟨(own_new isServer).fresh, ?_⟩
  refine Along.iff_of_invariant (fun s c h => h.fresh_iff) (fun s c s' h hb hs => ?_) (own_new isServer)
  exact Option.some.inj hs ▸ h.step hb

/-- The server is the first to open a stream; the client then cannot open one. -/
theorem peer_stream_moves_counter :
    let c : CreateCall false := ⟨.new false false ⟨0, 0, 0, 0, 1, 0⟩, rfl, 1, false⟩
    ((new false).step c).nextStreamIdBidi = 5 ∧ isLocal 5 false = false ∧
      ∃ r, c.map.getOrCreate 1 false = .ok r ∧ r.2.getOrCreate 5 true = .error .streamStateError :=
  ⟨by decide, rfl, _, rfl, rfl⟩

end StreamIds

end MoqQuic.L3.Tquic
