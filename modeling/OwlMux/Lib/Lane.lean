/-
One direction of a multiplexed connection. Many producers, one per key, hand frames to a shared bounded queue; one loop
moves the queue to a FIFO wire and may also put frames on the wire directly; the peer takes frames off the wire.

- `hand k`: the frame producer `k` holds while it waits for room in the queue;
- `queue`: the shared bounded queue;
- `wire`: the frames sent and not yet taken by the peer.

`transit key l k` is what is on its way for key `k`, oldest first. It grows only at `hold` (a producer takes a frame in
hand) and `push` (a frame goes directly on the wire), and shrinks only at `pop`, from the front: moving frames along
the lane changes no key's transit, so keys never mix or reorder.

`All P l` says every frame anywhere on the lane has `P`; each operation keeps it.

`OnlyLast p l` says that a frame with `p` ends its list: nothing follows an end marker.
-/
import Mathlib.Tactic

namespace OwlMux

structure Lane (F : Type*) where
  hand : ℕ → Option F := fun _ => none
  queue : List F := []
  wire : List F := []

namespace Lane

variable {F : Type*}

/-- producer `k` takes a frame in hand -/
def hold (l : Lane F) (k : ℕ) (f : F) : Lane F := { l with hand := Function.update l.hand k (some f) }

/-- producer `k` puts the frame it holds in the queue, if there is room for it -/
def enqueue (cap : ℕ) (l : Lane F) (k : ℕ) : Lane F :=
  match l.hand k with
  | none => l
  | some f =>
    if l.queue.length < cap then { l with hand := Function.update l.hand k none, queue := l.queue ++ [f] } else l

/-- the loop moves the oldest queued frame to the wire -/
def flush (l : Lane F) : Lane F :=
  match l.queue with
  | [] => l
  | f :: q => { l with queue := q, wire := l.wire ++ [f] }

/-- the loop puts a frame directly on the wire -/
def push (l : Lane F) (f : F) : Lane F := { l with wire := l.wire ++ [f] }

/-- the peer takes the oldest frame -/
def pop (l : Lane F) : Lane F := { l with wire := l.wire.tail }

@[simp] theorem push_wire (l : Lane F) (f : F) : (l.push f).wire = l.wire ++ [f] := rfl
@[simp] theorem push_queue (l : Lane F) (f : F) : (l.push f).queue = l.queue := rfl
@[simp] theorem push_hand (l : Lane F) (f : F) : (l.push f).hand = l.hand := rfl
@[simp] theorem pop_wire (l : Lane F) : l.pop.wire = l.wire.tail := rfl
@[simp] theorem pop_hand (l : Lane F) : l.pop.hand = l.hand := rfl
@[simp] theorem hold_wire (l : Lane F) (k : ℕ) (f : F) : (l.hold k f).wire = l.wire := rfl

@[simp]
theorem enqueue_wire (cap : ℕ) (l : Lane F) (k : ℕ) : (l.enqueue cap k).wire = l.wire := by
  unfold enqueue; split
  · rfl
  · split_ifs <;> rfl

@[simp]
theorem flush_hand (l : Lane F) : l.flush.hand = l.hand := by
  unfold flush; split <;> rfl

/-! ## What is on its way for one key -/

section Transit

variable (key : F → Option ℕ)

/-- the frames of key `k` anywhere on the lane, oldest first -/
def transit (l : Lane F) (k : ℕ) : List F := (l.wire ++ l.queue ++ (l.hand k).toList).filter (fun f => key f = some k)

/-- a producer holds only frames of its own key -/
def Keyed (l : Lane F) : Prop := ∀ k f, l.hand k = some f → key f = some k

variable {key}

theorem Keyed.hold {l : Lane F} (h : l.Keyed key) {k : ℕ} {f : F} (hf : key f = some k) : (l.hold k f).Keyed key := by
  intro j g hg
  by_cases hj : j = k
  · subst hj; simp [Lane.hold] at hg; exact hg ▸ hf
  · simp [Lane.hold, hj] at hg; exact h j g hg

theorem Keyed.enqueue {l : Lane F} (h : l.Keyed key) (cap k : ℕ) : (l.enqueue cap k).Keyed key := by
  intro j g hg
  unfold Lane.enqueue at hg
  split at hg
  · exact h j g hg
  · split_ifs at hg
    · by_cases hj : j = k
      · subst hj; simp at hg
      · simp [hj] at hg; exact h j g hg
    · exact h j g hg

theorem Keyed.flush {l : Lane F} (h : l.Keyed key) : l.flush.Keyed key := by
  intro j g hg; rw [flush_hand] at hg; exact h j g hg

theorem Keyed.push {l : Lane F} (h : l.Keyed key) (f : F) : (l.push f).Keyed key := h

theorem Keyed.pop {l : Lane F} (h : l.Keyed key) : l.pop.Keyed key := h

theorem transit_hold_self {l : Lane F} {k : ℕ} {f : F} (h : l.hand k = none) (hf : key f = some k) :
    (l.hold k f).transit key k = l.transit key k ++ [f] := by
  simp [transit, hold, h, hf, List.filter_append]

theorem transit_hold_ne (l : Lane F) {j k : ℕ} (f : F) (h : j ≠ k) :
    (l.hold k f).transit key j = l.transit key j := by
  simp [transit, hold, h]

/-- moving a frame from a producer's hand to the queue changes no key's transit -/
theorem transit_enqueue {l : Lane F} (hk : l.Keyed key) (cap k j : ℕ) :
    (l.enqueue cap k).transit key j = l.transit key j := by
  unfold enqueue
  split
  · rfl
  · rename_i f hf
    split_ifs
    · have hkey := hk k f hf
      by_cases hj : j = k
      · subst hj; simp [transit, hf, List.filter_append]
      · have hne : ¬ key f = some j := by rw [hkey]; simp; omega
        simp [transit, hj, List.filter_append, hne]
    · rfl

/-- moving a frame from the queue to the wire changes no key's transit -/
theorem transit_flush (l : Lane F) (j : ℕ) : l.flush.transit key j = l.transit key j := by
  unfold flush
  split
  · rfl
  · rename_i f q hq
    simp [transit, hq, List.append_assoc]

theorem transit_push_ne (l : Lane F) {f : F} {j : ℕ} (h : key f ≠ some j) :
    (l.push f).transit key j = l.transit key j := by
  simp [transit, push, List.filter_append, h]

/-- a frame pushed on the wire is the newest of its key when the key has nothing queued or in hand -/
theorem transit_push_self {l : Lane F} {f : F} {k : ℕ} (h : key f = some k)
    (hq : ∀ g ∈ l.queue, key g ≠ some k) (hh : l.hand k = none) :
    (l.push f).transit key k = l.transit key k ++ [f] := by
  have hq' : l.queue.filter (fun g => key g = some k) = [] := by
    rw [List.filter_eq_nil_iff]; intro g hg; simpa using hq g hg
  simp [transit, push, List.filter_append, h, hh, hq']

theorem transit_pop_self {l : Lane F} {f : F} {w : List F} {k : ℕ} (hw : l.wire = f :: w) (h : key f = some k) :
    l.transit key k = f :: l.pop.transit key k := by
  simp [transit, pop, hw, h]

theorem transit_pop_ne {l : Lane F} {f : F} {w : List F} {j : ℕ} (hw : l.wire = f :: w) (h : key f ≠ some j) :
    l.pop.transit key j = l.transit key j := by
  simp [transit, pop, hw, h]

theorem mem_transit_of_wire {l : Lane F} {f : F} {k : ℕ} (hf : f ∈ l.wire) (h : key f = some k) :
    f ∈ l.transit key k := by
  simp [transit, hf, h]

theorem mem_transit_of_queue {l : Lane F} {f : F} {k : ℕ} (hf : f ∈ l.queue) (h : key f = some k) :
    f ∈ l.transit key k := by
  simp [transit, hf, h]

theorem hand_eq_none_of_transit {l : Lane F} (hk : l.Keyed key) {k : ℕ} (h : l.transit key k = []) :
    l.hand k = none := by
  cases hh : l.hand k with
  | none => rfl
  | some f =>
    have : f ∈ l.transit key k := by simp [transit, hh, hk k f hh]
    rw [h] at this; simp at this

end Transit

/-! ## Properties of every frame on the lane -/

/-- every frame on the lane has `P` -/
structure All (P : F → Prop) (l : Lane F) : Prop where
  hand : ∀ k f, l.hand k = some f → P f
  queue : ∀ f ∈ l.queue, P f
  wire : ∀ f ∈ l.wire, P f

namespace All

variable {P Q : F → Prop} {l : Lane F}

theorem mono (h : All P l) (hPQ : ∀ f, P f → Q f) : All Q l :=
  ⟨fun k f hf => hPQ f (h.hand k f hf), fun f hf => hPQ f (h.queue f hf), fun f hf => hPQ f (h.wire f hf)⟩

theorem hold (h : All P l) (k : ℕ) {f : F} (hf : P f) : All P (l.hold k f) := by
  refine ⟨fun j g hg => ?_, h.queue, h.wire⟩
  by_cases hj : j = k
  · subst hj; simp [Lane.hold] at hg; exact hg ▸ hf
  · simp [Lane.hold, hj] at hg; exact h.hand j g hg

theorem enqueue (h : All P l) (cap k : ℕ) : All P (l.enqueue cap k) := by
  unfold Lane.enqueue
  split
  · exact h
  · rename_i f hf
    split_ifs
    · refine ⟨fun j g hg => ?_, fun g hg => ?_, h.wire⟩
      · by_cases hj : j = k
        · subst hj; simp at hg
        · simp [hj] at hg; exact h.hand j g hg
      · rcases List.mem_append.1 hg with hg | hg
        · exact h.queue g hg
        · simp only [List.mem_singleton] at hg; subst hg; exact h.hand k _ hf
    · exact h

theorem flush (h : All P l) : All P l.flush := by
  unfold Lane.flush
  split
  · exact h
  · rename_i f q hq
    have hf : P f := h.queue f (by rw [hq]; exact List.mem_cons_self)
    refine ⟨h.hand, fun g hg => h.queue g (by rw [hq]; exact List.mem_cons_of_mem _ hg), fun g hg => ?_⟩
    rcases List.mem_append.1 hg with hg | hg
    · exact h.wire g hg
    · simp only [List.mem_singleton] at hg; subst hg; exact hf

theorem push (h : All P l) {f : F} (hf : P f) : All P (l.push f) := by
  refine ⟨h.hand, h.queue, fun g hg => ?_⟩
  rcases List.mem_append.1 hg with hg | hg
  · exact h.wire g hg
  · simp only [List.mem_singleton] at hg; subst hg; exact hf

theorem pop (h : All P l) : All P l.pop :=
  ⟨h.hand, h.queue, fun g hg => h.wire g (List.mem_of_mem_tail hg)⟩

end All

/-! ## End markers -/

/-- only the newest frame of the list may have `p` -/
def OnlyLast (p : F → Bool) (l : List F) : Prop := l.Pairwise fun f _ => p f = false

variable {p : F → Bool} {l : List F} {f : F}

theorem OnlyLast.append (h : ∀ g ∈ l, p g = false) : OnlyLast p (l ++ [f]) := by
  refine List.pairwise_append.2 ⟨?_, List.pairwise_singleton _ _, fun g hg _ _ => h g hg⟩
  exact List.Pairwise.imp_of_mem (fun hg _ _ => h _ hg) (List.pairwise_of_forall (fun _ _ => trivial))

theorem OnlyLast.of_cons (h : OnlyLast p (f :: l)) : OnlyLast p l := List.Pairwise.of_cons h

theorem OnlyLast.eq_nil (h : OnlyLast p (f :: l)) (hf : p f = true) : l = [] := by
  cases l with
  | nil => rfl
  | cons g l => simpa [hf] using List.rel_of_pairwise_cons h List.mem_cons_self

end Lane

end OwlMux
