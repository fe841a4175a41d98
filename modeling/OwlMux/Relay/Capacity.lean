/-
Stream capacity: what `targets` holds when an OpenStream arrives.

The two sides forget a stream at different moments. The Server removes it from `writers` when the Relay ends its direction;
the Relay removes it from `targets` when it takes the Server's end frame off the wire. Both look at their own map before
they accept an open, so the Relay may still hold streams that the Server no longer counts.

The invariant has two parts. `Sent`: OpenStream frames are on the wire in ascending order, `closedSent` names the streams
whose end frame went on the wire, and the end frames behind an OpenStream are exactly those sent after its admission.
`Taken`: a running Relay has forgotten exactly the connected streams whose end frame it took. FIFO then gives `targets_eq`:
when the OpenStream of `id` is at the head, `targets` is the set of connected streams whose end frame had not been sent
when `id` was admitted.

Results:
- `sent_run`, `taken_run`: both parts in every reachable state;
- `targets_eq`;
- `capacity_agreement`: the Relay has room for every OpenStream of a run iff, at each, fewer than MAX_STREAMS of the
  streams not yet ended by the Server at its admission are connected;
- `capacity_exceeded`: a run in which the 33rd open ends the Relay loop with a protocol error.
-/
import Mathlib.Tactic
import OwlMux.Relay.Flow

namespace OwlMux.Relay

/-- an end frame of stream `i` -/
def ServerFrame.Ends (f : ServerFrame) (i : ℕ) : Prop := f.closing = true ∧ f.stream = some i

/-- the Relay has taken the Server's end frame of stream `i` -/
def Popped (s : St) (i : ℕ) : Prop := i ∈ s.closedSent ∧ ∀ f ∈ s.down.wire, ¬ f.Ends i

/-- what the Server has sent -/
structure Sent (s : St) : Prop where
  /-- only data and end frames pass through the queue -/
  held : ∀ k f, s.down.hand k = some f → ∀ id, f ≠ .openStream id
  queued : ∀ f ∈ s.down.queue, ∀ id, f ≠ .openStream id
  sorted : s.down.wire.Pairwise fun f g => ∀ i j, f = .openStream i → g = .openStream j → i < j
  below : ∀ i, .openStream i ∈ s.down.wire → i < s.nextStreamId
  /-- the end frame was the last frame of its stream -/
  last : ∀ i ∈ s.closedSent, i < s.nextStreamId ∧ (s.streams i).callerReader = false ∧ s.down.hand i = none ∧
    ∀ f ∈ s.down.queue, f.stream ≠ some i
  wire_ends : ∀ f ∈ s.down.wire, ∀ i, f.Ends i → i ∈ s.closedSent
  /-- the end frames behind an OpenStream are those sent after its admission -/
  snapshot : ∀ a id b, s.down.wire = a ++ .openStream id :: b →
    ∀ i, i ∈ s.admitted id ↔ 1 ≤ i ∧ i < id ∧ (i ∈ s.closedSent → ∃ f ∈ b, f.Ends i)

/-- what a running Relay has taken -/
structure Taken (s : St) : Prop where
  connected_lt : ∀ i ∈ s.connected, ∀ o, .openStream o ∈ s.down.wire → i < o
  popped_seen : ∀ i, Popped s i → i ∈ s.connected ∨ i ∈ s.refused
  popped_target : ∀ i ∈ s.connected, (i ∈ s.targets ↔ ¬ Popped s i)

theorem sent_init : Sent init := by constructor <;> simp [init]

theorem taken_init : Taken init := by constructor <;> simp [init, Popped]

variable {s s' : St}

theorem not_ends_open {id i : ℕ} : ¬ (ServerFrame.openStream id).Ends i := by
  rintro ⟨h, -⟩; simp [ServerFrame.closing] at h

theorem mem_noteClosing {c : Finset ℕ} {f : ServerFrame} {j : ℕ} : j ∈ noteClosing c f ↔ j ∈ c ∨ f.Ends j := by
  unfold noteClosing ServerFrame.Ends
  cases hs : f.stream with
  | none => simp
  | some i =>
    cases hc : f.closing with
    | true => simp [eq_comm, or_comm]
    | false => simp

/-! ## Steps that leave the lane alone, and steps that take its head -/

theorem Sent.congr (h : Sent s) (hd : s'.down = s.down) (hn : s'.nextStreamId = s.nextStreamId)
    (hc : s'.closedSent = s.closedSent) (ha : s'.admitted = s.admitted)
    (hr : ∀ i, (s'.streams i).callerReader = (s.streams i).callerReader) : Sent s' := by
  refine ⟨?_, ?_, ?_, ?_, ?_, ?_, ?_⟩ <;> simp only [hd, hn, hc, ha, hr]
  exacts [h.held, h.queued, h.sorted, h.below, h.last, h.wire_ends, h.snapshot]

theorem Sent.pop (h : Sent s) {f : ServerFrame} {w : List ServerFrame} (hw : s.down.wire = f :: w)
    (hd : s'.down = s.down.pop) (hn : s'.nextStreamId = s.nextStreamId) (hc : s'.closedSent = s.closedSent)
    (ha : s'.admitted = s.admitted) (hr : ∀ i, (s'.streams i).callerReader = (s.streams i).callerReader) : Sent s' := by
  have htail : s.down.pop.wire = w := by simp [hw]
  have hmem : ∀ g ∈ w, g ∈ s.down.wire := fun g hg => by rw [hw]; exact List.mem_cons_of_mem _ hg
  have hsorted := h.sorted
  rw [hw] at hsorted
  refine ⟨?_, ?_, ?_, ?_, ?_, ?_, ?_⟩ <;> simp only [hd, hn, hc, ha, hr, htail]
  · exact h.held
  · exact h.queued
  · exact hsorted.of_cons
  · exact fun i hi => h.below i (hmem _ hi)
  · exact h.last
  · exact fun g hg => h.wire_ends g (hmem g hg)
  · exact fun a id b hab => h.snapshot (f :: a) id b (by simp [hw, hab])

theorem Popped.congr (hd : s'.down = s.down) (hc : s'.closedSent = s.closedSent) (i : ℕ) : Popped s' i ↔ Popped s i := by
  simp only [Popped, hd, hc]

theorem Taken.congr (h : Taken s) (hd : s'.down = s.down) (hc : s'.closedSent = s.closedSent)
    (hco : s'.connected = s.connected) (hre : s'.refused = s.refused) (ht : s'.targets = s.targets) : Taken s' := by
  refine ⟨?_, ?_, ?_⟩ <;> simp only [Popped.congr hd hc, hd, hco, hre, ht]
  exacts [h.connected_lt, h.popped_seen, h.popped_target]

/-! ## Steps that put a frame on the wire -/

/-- a split at an OpenStream of a wire that just grew by one frame -/
theorem split_snoc {w a b : List ServerFrame} {f : ServerFrame} {id : ℕ} (h : w ++ [f] = a ++ .openStream id :: b) :
    (f = .openStream id ∧ a = w ∧ b = []) ∨ ∃ b', b = b' ++ [f] ∧ w = a ++ .openStream id :: b' := by
  rcases List.eq_nil_or_concat b with rfl | ⟨b', g, rfl⟩
  · have := List.append_inj' h rfl
    exact Or.inl ⟨by simpa using this.2, this.1.symm, rfl⟩
  · have : w ++ [f] = (a ++ .openStream id :: b') ++ [g] := by simpa using h
    obtain ⟨h1, h2⟩ := List.append_inj' this rfl
    simp only [List.cons.injEq, and_true] at h2
    exact Or.inr ⟨b', by simp [h2], h1⟩

section Grow

variable {f : ServerFrame} {l : Lane ServerFrame} {c : Finset ℕ} {n : ℕ} {ps : List ℕ}

/-- a data, end or ping frame goes on the wire; `c` adds the stream it ends -/
theorem Sent.grow (h : Sent s) (hno : ∀ id, f ≠ .openStream id) (hwire : l.wire = s.down.wire ++ [f])
    (hhand : l.hand = s.down.hand) (hqueue : ∀ g ∈ l.queue, g ∈ s.down.queue)
    (hc : ∀ j, j ∈ c ↔ j ∈ s.closedSent ∨ f.Ends j)
    (hE : ∀ j, f.Ends j → j ∉ s.closedSent ∧ j < s.nextStreamId ∧ (s.streams j).callerReader = false ∧
      l.hand j = none ∧ ∀ g ∈ l.queue, g.stream ≠ some j) :
    Sent { s with down := l, closedSent := c, pingNonce := n, outstandingPings := ps } := by
  refine
    { held := fun k g hg => h.held k g (by rw [← hhand]; exact hg)
      queued := fun g hg => h.queued g (hqueue g hg)
      sorted := ?_, below := fun i hi => ?_, last := fun i hi => ?_, wire_ends := fun g hg i he => ?_
      snapshot := fun a id b hab i => ?_ }
  · show List.Pairwise _ l.wire
    rw [hwire]
    refine List.pairwise_append.2 ⟨h.sorted, List.pairwise_singleton _ _, fun g _ g' hg' i j _ hj => ?_⟩
    simp only [List.mem_singleton] at hg'
    exact (hno j (hg'.symm.trans hj)).elim
  · have hi' : .openStream i ∈ s.down.wire ++ [f] := hwire ▸ hi
    exact h.below i (by simpa [(hno i).symm] using hi')
  · rcases (hc i).1 hi with hi | hi
    · obtain ⟨h1, h2, h3, h4⟩ := h.last i hi
      exact ⟨h1, h2, by rw [hhand]; exact h3, fun g hg => h4 g (hqueue g hg)⟩
    · exact (hE i hi).2
  · have hg' : g ∈ s.down.wire ++ [f] := hwire ▸ hg
    refine (hc i).2 ?_
    rcases List.mem_append.1 hg' with hg' | hg'
    · exact Or.inl (h.wire_ends g hg' i he)
    · simp only [List.mem_singleton] at hg'; subst hg'; exact Or.inr he
  · have hab' : s.down.wire ++ [f] = a ++ .openStream id :: b := hwire ▸ hab
    rcases split_snoc hab' with ⟨hf, -⟩ | ⟨b', rfl, hw⟩
    · exact (hno id hf).elim
    · show i ∈ s.admitted id ↔ 1 ≤ i ∧ i < id ∧ (i ∈ c → ∃ g ∈ b' ++ [f], g.Ends i)
      rw [h.snapshot a id b' hw i]
      refine and_congr_right fun _ => and_congr_right fun _ => ⟨fun hs hi => ?_, fun hs hi => ?_⟩
      · rcases (hc i).1 hi with hi | hi
        · obtain ⟨g, hg, he⟩ := hs hi; exact ⟨g, List.mem_append_left _ hg, he⟩
        · exact ⟨f, by simp, hi⟩
      · obtain ⟨g, hg, he⟩ := hs ((hc i).2 (Or.inl hi))
        rcases List.mem_append.1 hg with hg | hg
        · exact ⟨g, hg, he⟩
        · simp only [List.mem_singleton] at hg; subst hg; exact ((hE i he).1 hi).elim

theorem Taken.grow (h : Taken s) (hno : ∀ id, f ≠ .openStream id) (hwire : l.wire = s.down.wire ++ [f])
    (hc : ∀ j, j ∈ c ↔ j ∈ s.closedSent ∨ f.Ends j) (hE : ∀ j, f.Ends j → j ∉ s.closedSent) :
    Taken { s with down := l, closedSent := c, pingNonce := n, outstandingPings := ps } := by
  have hpop : ∀ i, Popped { s with down := l, closedSent := c, pingNonce := n, outstandingPings := ps } i ↔ Popped s i := by
    intro i
    simp only [Popped, hwire, hc]
    constructor
    · rintro ⟨h1, h2⟩
      have hf : ¬ f.Ends i := h2 f (by simp)
      exact ⟨h1.resolve_right hf, fun g hg => h2 g (List.mem_append_left _ hg)⟩
    · rintro ⟨h1, h2⟩
      refine ⟨Or.inl h1, fun g hg he => ?_⟩
      rcases List.mem_append.1 hg with hg | hg
      · exact h2 g hg he
      · simp only [List.mem_singleton] at hg; subst hg; exact hE i he h1
  refine ⟨fun i hi o ho => ?_, fun i hp => h.popped_seen i ((hpop i).1 hp), fun i hi =>
    (h.popped_target i hi).trans (not_congr (hpop i).symm)⟩
  have ho' : .openStream o ∈ s.down.wire ++ [f] := hwire ▸ ho
  exact h.connected_lt i hi o (by simpa [(hno o).symm] using ho')

end Grow

/-- the loop puts the OpenStream of the next id on the wire -/
theorem Sent.admitted (h : Sent s) : Sent (admitStream s) := by
  refine { h with sorted := ?_, below := fun i hi => ?_, last := fun i hi => ?_, wire_ends := fun g hg i he => ?_
                  snapshot := fun a id b hab i => ?_ }
  · refine List.pairwise_append.2 ⟨h.sorted, List.pairwise_singleton _ _, fun g hg g' hg' i j hi hj => ?_⟩
    simp only [List.mem_singleton] at hg'
    have hj' : s.nextStreamId = j := by simpa [hg'] using hj
    exact hj' ▸ h.below i (hi ▸ hg)
  · show i < s.nextStreamId + 1
    rcases List.mem_append.1 hi with hi | hi
    · exact Nat.lt_succ_of_lt (h.below i hi)
    · simp at hi; omega
  · obtain ⟨h1, h2, h3⟩ := h.last i hi
    refine ⟨Nat.lt_succ_of_lt h1, ?_, h3⟩
    exact (congrArg Stream.callerReader (modify_streams_ne s Stream.callerStarts h1.ne)).trans h2
  · rcases List.mem_append.1 hg with hg | hg
    · exact h.wire_ends g hg i he
    · simp only [List.mem_singleton] at hg; subst hg; exact (not_ends_open he).elim
  · rcases split_snoc hab with ⟨hf, -, rfl⟩ | ⟨b', rfl, hw⟩
    · obtain rfl : s.nextStreamId = id := by simpa using hf
      simp [admitStream, St.modify, and_assoc]
    · have hid : id ≠ s.nextStreamId := (h.below id (by simp [hw])).ne
      have hadm : (admitStream s).admitted id = s.admitted id := by simp [admitStream, hid]
      rw [hadm, h.snapshot a id b' hw i]
      simp [admitStream, St.modify, or_and_right, exists_or, not_ends_open]

theorem Taken.admitted (h : Taken s) (hok : ∀ id, (s.flow id).Ok id) : Taken (admitStream s) := by
  have hpop : ∀ i, Popped (admitStream s) i ↔ Popped s i := fun i => by
    simp [Popped, admitStream, St.modify, or_imp, forall_and, not_ends_open]
  refine ⟨fun i hi o ho => ?_, fun i hp => h.popped_seen i ((hpop i).1 hp), fun i hi =>
    (h.popped_target i hi).trans (not_congr (hpop i).symm)⟩
  rcases List.mem_append.1 ho with ho | ho
  · exact h.connected_lt i hi o ho
  · obtain rfl : o = s.nextStreamId := by simpa using ho
    by_contra hc
    have hk : ¬ (s.flow i).known := fun hk => hc hk.2
    exact ((hok i).fresh hk).2.2.2.1 hi

/-! ## The reader tasks of the Server -/

theorem Sent.hold (h : Sent s) {k : ℕ} {f : ServerFrame} {g : Stream → Stream} (hno : ∀ id, f ≠ .openStream id)
    (hr : (s.streams k).callerReader = true) : Sent { s.modify k g with down := s.down.hold k f } := by
  have hk : ∀ i ∈ s.closedSent, i ≠ k := by
    rintro i hi rfl
    simp [(h.last i hi).2.1] at hr
  refine { h with held := fun j g' hg => ?_, last := fun i hi => ?_ }
  · by_cases hj : j = k
    · subst hj
      obtain rfl : f = g' := by simpa [Lane.hold] using hg
      exact hno
    · exact h.held j g' (by simpa [Lane.hold, hj] using hg)
  · obtain ⟨h1, h2, h3, h4⟩ := h.last i hi
    refine ⟨h1, ?_, by simpa [Lane.hold, hk i hi] using h3, h4⟩
    exact (congrArg Stream.callerReader (modify_streams_ne s g (hk i hi))).trans h2

theorem Sent.enqueue (h : Sent s) (hwf : Wf s) (cap k : ℕ) : Sent { s with down := s.down.enqueue cap k } := by
  unfold Lane.enqueue
  split
  · exact h.congr rfl rfl rfl rfl fun _ => rfl
  · rename_i f hf
    split_ifs
    · refine { h with held := fun j g hg => ?_, queued := fun g hg => ?_, last := fun i hi => ?_ }
      · by_cases hj : j = k
        · subst hj; simp at hg
        · exact h.held j g (by simpa [hj] using hg)
      · rcases List.mem_append.1 hg with hg | hg
        · exact h.queued g hg
        · simp only [List.mem_singleton] at hg; subst hg; exact h.held k _ hf
      · obtain ⟨h1, h2, h3, h4⟩ := h.last i hi
        have hik : i ≠ k := by rintro rfl; simp [hf] at h3
        refine ⟨h1, h2, by simpa [hik] using h3, fun g hg => ?_⟩
        rcases List.mem_append.1 hg with hg | hg
        · exact h4 g hg
        · simp only [List.mem_singleton] at hg; subst hg
          rw [hwf.down_keyed k _ hf]; simpa using hik.symm
    · exact h.congr rfl rfl rfl rfl fun _ => rfl

/-- the end frame of a stream leaves the queue: nothing of the stream is behind it -/
theorem ends_last (h : Sent s) (hwf : Wf s) (hok : ∀ id, (s.flow id).Ok id) {f : ServerFrame} {q : List ServerFrame}
    (hq : s.down.queue = f :: q) (j : ℕ) (he : f.Ends j) :
    j ∉ s.closedSent ∧ j < s.nextStreamId ∧ (s.streams j).callerReader = false ∧ s.down.hand j = none ∧
      ∀ g ∈ q, g.stream ≠ some j := by
  have htr : (s.flow j).down = s.down.wire.filter (fun f => f.stream = some j) ++ f ::
      (q ++ (s.down.hand j).toList).filter (fun f => f.stream = some j) := by
    simp [St.flow, Lane.transit, hq, he.2]
  have hmem : f ∈ (s.flow j).down := by rw [htr]; simp
  have hlast := (hok j).down_last
  rw [htr] at hlast
  have hnil := Lane.OnlyLast.eq_nil (List.pairwise_append.1 hlast).2.1 he.1
  refine ⟨fun hm => (h.last j hm).2.2.2 f (by simp [hq]) he.2, ?_, ?_, ?_, fun g hg hj => ?_⟩
  · by_contra hc
    have : (s.flow j).down = [] := ((hok j).fresh fun hk => hc hk.2).1
    simp [this] at hmem
  · by_contra hc
    have hr : (s.streams j).callerReader = true := by simpa using hc
    have := (hok j).down_reader hr f hmem
    simp [he.1] at this
  · cases hh : s.down.hand j with
    | none => rfl
    | some g => simp [hh, List.filter_append, hwf.down_keyed j g hh] at hnil
  · have : g ∈ (q ++ (s.down.hand j).toList).filter (fun f => f.stream = some j) := by simp [hg, hj]
    simp [hnil] at this

/-! ## The Relay takes the head -/

theorem Popped.pop {f : ServerFrame} {w : List ServerFrame} (hw : s.down.wire = f :: w) (hd : s'.down = s.down.pop)
    (hc : s'.closedSent = s.closedSent) (i : ℕ) (hf : ¬ f.Ends i) : Popped s' i ↔ Popped s i := by
  simp [Popped, hd, hc, hw, hf]

/-- the Relay takes a frame that ends no stream, and connects none -/
theorem Taken.pop (h : Taken s) {f : ServerFrame} {w : List ServerFrame} (hw : s.down.wire = f :: w)
    (hf : ∀ i, ¬ f.Ends i) (hd : s'.down = s.down.pop) (hc : s'.closedSent = s.closedSent)
    (hco : s'.connected = s.connected) (hre : ∀ i ∈ s.refused, i ∈ s'.refused) (ht : s'.targets = s.targets) :
    Taken s' := by
  have hpop := fun i => Popped.pop hw hd hc i (hf i)
  refine ⟨fun i hi o ho => ?_, fun i hp => ?_, fun i hi => ?_⟩
  · refine h.connected_lt i (hco ▸ hi) o ?_
    rw [hd] at ho
    exact List.mem_of_mem_tail ho
  · rw [hco]
    exact (h.popped_seen i ((hpop i).1 hp)).imp_right (hre i)
  · rw [ht, hpop i]; exact h.popped_target i (hco ▸ hi)

theorem Taken.connect (h : Taken s) (hs : Sent s) (hok : ∀ id, (s.flow id).Ok id) {id : ℕ} {w : List ServerFrame}
    (he : s.relayExit = none) (hw : s.down.wire = .openStream id :: w) (hd : s'.down = s.down.pop)
    (hc : s'.closedSent = s.closedSent) (hco : s'.connected = insert id s.connected) (hre : s'.refused = s.refused)
    (ht : s'.targets = insert id s.targets) : Taken s' := by
  have hpop := fun i => Popped.pop hw hd hc i not_ends_open
  obtain ⟨hn1, hn2, -⟩ := (hok id).unseen_of_open (by simp [St.flow, he]) (down_head hw rfl)
  refine ⟨fun i hi o ho => ?_, fun i hp => ?_, fun i hi => ?_⟩
  · have ho' : .openStream o ∈ w := by rw [hd] at ho; simpa [hw] using ho
    rw [hco, Finset.mem_insert] at hi
    rcases hi with rfl | hi
    · have := hs.sorted
      rw [hw] at this
      exact List.rel_of_pairwise_cons this ho' i o rfl rfl
    · exact h.connected_lt i hi o (by rw [hw]; exact List.mem_cons_of_mem _ ho')
  · rw [hco, hre]
    exact (h.popped_seen i ((hpop i).1 hp)).imp_left (Finset.mem_insert_of_mem ·)
  · rw [hco, Finset.mem_insert] at hi
    rw [ht, hpop i, Finset.mem_insert]
    by_cases hi' : i = id
    · subst hi'
      refine iff_of_true (Or.inl rfl) fun hp => ?_
      exact (h.popped_seen i hp).elim hn1 hn2
    · simpa [hi'] using h.popped_target i (hi.resolve_left hi')

theorem Taken.finish (h : Taken s) (hs : Sent s) (hok : ∀ id, (s.flow id).Ok id) {id : ℕ} {f : ServerFrame}
    {w : List ServerFrame} (he : s.relayExit = none) (hw : s.down.wire = f :: w) (hf : f.Ends id)
    (hd : s'.down = s.down.pop) (hc : s'.closedSent = s.closedSent) (hco : s'.connected = s.connected)
    (hre : s'.refused = s.refused) (ht : s'.targets = s.targets.erase id) : Taken s' := by
  have hup : (s.flow id).relayUp = true := by simp [St.flow, he]
  have hhead : (s.flow id).down = f :: s.down.pop.transit ServerFrame.stream id := down_head hw hf.2
  have hnil : s.down.pop.transit ServerFrame.stream id = [] :=
    Lane.OnlyLast.eq_nil (hhead ▸ (hok id).down_last) hf.1
  have hself : Popped s' id := by
    refine ⟨hc ▸ hs.wire_ends f (by simp [hw]) id hf, fun g hg hge => ?_⟩
    have : g ∈ s.down.pop.transit ServerFrame.stream id := Lane.mem_transit_of_wire (hd ▸ hg) hge.2
    simp [hnil] at this
  have hother : ∀ i, i ≠ id → (Popped s' i ↔ Popped s i) := fun i hi =>
    Popped.pop hw hd hc i fun hfi => hi (by simpa [hf.2] using hfi.2.symm)
  refine ⟨fun i hi o ho => ?_, fun i hp => ?_, fun i hi => ?_⟩
  · refine h.connected_lt i (hco ▸ hi) o ?_
    rw [hd] at ho
    exact List.mem_of_mem_tail ho
  · rw [hco, hre]
    by_cases hi : i = id
    · subst hi
      by_contra hn
      rw [not_or] at hn
      exact (hok i).seen_of_head hup hhead (Flow.closing_ne_open hf.1) hn
    · exact h.popped_seen i ((hother i hi).1 hp)
  · rw [ht]
    by_cases hi' : i = id
    · subst hi'; simp [hself]
    · rw [Finset.mem_erase, hother i hi']
      simpa [hi'] using h.popped_target i (hco ▸ hi)

/-! ## Runs -/

theorem callerReader_modify {k : ℕ} {g : Stream → Stream} (hg : ∀ t, (g t).callerReader = t.callerReader) (i : ℕ) :
    ((s.modify k g).streams i).callerReader = (s.streams i).callerReader :=
  forall_modify (P := fun j t => t.callerReader = (s.streams j).callerReader) (fun _ => rfl) (hg _) i

theorem Sent.move (h : Sent s) (hwf : Wf s) (hok : ∀ id, (s.flow id).Ok id) (m : Move s s') : Sent s' := by
  cases m with
  | flags | serverOpened | serverPong | serverEnd | serverFail | sshdEnqueue | relaySend =>
    exact h.congr rfl rfl rfl rfl fun _ => rfl
  | callerGone | sshdGone | serverData | serverCut | sshdData | sshdEnd =>
    exact h.congr rfl rfl rfl rfl (callerReader_modify fun _ => rfl)
  | admitted => exact h.admitted
  | callerData id b hr => exact h.hold (by simp) hr
  | callerEnd id f hr hh hf => exact h.hold (fun _ => Flow.closing_ne_open (endFrame_server hf).2.1) hr
  | callerEnqueue id => exact h.enqueue hwf _ id
  | serverSend f q hq =>
    have hflush : s.down.flush = { s.down with queue := q, wire := s.down.wire ++ [f] } := by simp [Lane.flush, hq]
    have hno := h.queued f (by simp [hq])
    rw [hflush]
    exact h.grow hno rfl rfl (fun g hg => by rw [hq]; exact List.mem_cons_of_mem _ hg) (fun _ => mem_noteClosing)
      (ends_last h hwf hok hq)
  | ping hn =>
    refine h.grow (f := .ping (s.pingNonce + 1)) (by simp) rfl rfl (fun g hg => hg) (fun j => ?_) (fun j he => ?_)
    · simp [ServerFrame.Ends, ServerFrame.closing]
    · simp [ServerFrame.Ends, ServerFrame.closing] at he
  | connect id w he hw | relayData id d b w he hw | relayCut id d b k w he hw =>
    exact h.pop hw rfl rfl rfl rfl (callerReader_modify fun _ => rfl)
  | refuse id w he hw | relayEnd id f w he hw | pong n w he hw | relayFail f e w hw =>
    exact h.pop hw rfl rfl rfl rfl fun _ => rfl

theorem not_ends {f : ServerFrame} (hf : f.closing = false) (i : ℕ) : ¬ f.Ends i := fun he => by simp [he.1] at hf

theorem Taken.move (h : Taken s) (hs : Sent s) (hwf : Wf s) (hok : ∀ id, (s.flow id).Ok id) (m : Move s s')
    (hr : s'.relayExit = none) : Taken s' := by
  cases m with
  | flags | callerGone | sshdGone | serverOpened | serverPong | serverEnd | serverFail | serverData | serverCut |
      sshdData | sshdEnd | sshdEnqueue | relaySend => exact h.congr rfl rfl rfl rfl rfl
  | admitted => exact h.admitted hok
  | callerData | callerEnd =>
    exact ⟨h.connected_lt, h.popped_seen, h.popped_target⟩
  | callerEnqueue id =>
    have hw := Lane.enqueue_wire outboundCapacity s.down id
    have hp : ∀ i, Popped { s with down := s.down.enqueue outboundCapacity id } i ↔ Popped s i := by simp [Popped]
    exact ⟨fun i hi o ho => h.connected_lt i hi o (hw ▸ ho), fun i hi => h.popped_seen i ((hp i).1 hi),
      fun i hi => (h.popped_target i hi).trans (not_congr (hp i).symm)⟩
  | serverSend f q hq =>
    have hflush : s.down.flush.wire = s.down.wire ++ [f] := by simp [Lane.flush, hq]
    exact h.grow (hs.queued f (by simp [hq])) hflush (fun _ => mem_noteClosing)
      fun j he => (ends_last hs hwf hok hq j he).1
  | ping hn =>
    refine h.grow (f := .ping (s.pingNonce + 1)) (by simp) rfl (fun j => ?_) (fun j he => ?_)
    · simp [ServerFrame.Ends, ServerFrame.closing]
    · simp [ServerFrame.Ends, ServerFrame.closing] at he
  | connect id w he hw => exact h.connect hs hok he hw rfl rfl rfl rfl rfl
  | refuse id w he hw => exact h.pop hw (not_ends rfl) rfl rfl rfl (fun i hi => Finset.mem_insert_of_mem hi) rfl
  | relayData id d b w he hw => exact h.pop hw (not_ends rfl) rfl rfl rfl (fun i hi => hi) rfl
  | relayCut | relayFail => simp at hr
  | relayEnd id f w he hw hf hid => exact h.finish hs hok he hw ⟨hf, hid⟩ rfl rfl rfl rfl rfl
  | pong n w he hw => exact h.pop hw (not_ends rfl) rfl rfl rfl (fun i hi => hi) rfl

/-- an exited Relay stays so -/
theorem Move.relayExit (m : Move s s') (hr : s'.relayExit = none) : s.relayExit = none := by
  cases m with
  | flags b l se re hs h => exact h hr
  | relayCut | relayFail => simp at hr
  | _ => exact hr

theorem sent_run (ops : List Op) : Sent (run init ops) := by
  have key := run_inv_of_move (I := fun s => (∀ id, (s.flow id).Ok id) ∧ Sent s) ⟨flow_init, sent_init⟩
    (fun s s' hwf m h => ⟨fun id => (flow_move hwf h.1 m id).ok (h.1 id), h.2.move hwf h.1 m⟩) ops
  exact key.2

theorem taken_run (ops : List Op) (hr : (run init ops).relayExit = none) : Taken (run init ops) := by
  have key := run_inv_of_move
    (I := fun s => ((∀ id, (s.flow id).Ok id) ∧ Sent s) ∧ (s.relayExit = none → Taken s))
    ⟨⟨flow_init, sent_init⟩, fun _ => taken_init⟩
    (fun s s' hwf m h => ⟨⟨fun id => (flow_move hwf h.1.1 m id).ok (h.1.1 id), h.1.2.move hwf h.1.1 m⟩,
      fun hr => (h.2 (m.relayExit hr)).move h.1.2 hwf h.1.1 m hr⟩) ops
  exact key.2 hr

/-- **What the Relay holds when an OpenStream arrives**: the connected streams that the Server had not ended when it
admitted the new one -/
theorem targets_eq (ops : List Op) {id : ℕ} {w : List ServerFrame} (hr : (run init ops).relayExit = none)
    (hw : (run init ops).down.wire = .openStream id :: w) :
    (run init ops).targets = (run init ops).admitted id ∩ (run init ops).connected := by
  have hs := sent_run ops
  have ht := taken_run ops hr
  ext i
  rw [Finset.mem_inter, hs.snapshot [] id w hw i]
  have hends : (∃ f ∈ (run init ops).down.wire, f.Ends i) ↔ ∃ f ∈ w, f.Ends i := by simp [hw, not_ends_open]
  constructor
  · intro hi
    have hc : i ∈ (run init ops).connected := (flow_run ops i).target_connected hi
    have hp := (ht.popped_target i hc).1 hi
    have hk : ((run init ops).flow i).known := by
      by_contra hk; exact ((flow_run ops i).fresh hk).2.2.2.1 hc
    refine ⟨⟨hk.1, ht.connected_lt i hc id (by simp [hw]), fun hsent => hends.1 ?_⟩, hc⟩
    by_contra hn
    exact hp ⟨hsent, fun f hf he => hn ⟨f, hf, he⟩⟩
  · rintro ⟨⟨-, -, h3⟩, hc⟩
    refine (ht.popped_target i hc).2 fun hp => ?_
    obtain ⟨f, hf, he⟩ := hends.2 (h3 hp.1)
    exact hp.2 f hf he

/-! ## Room for every admitted stream -/

/-- the answer of the Relay to an OpenStream: it is never 0 nor a duplicate, so only the capacity is left to check -/
theorem open_answer (ops : List Op) (connect : Bool) (wr : Write) {id : ℕ} {w : List ServerFrame}
    (hr : (run init ops).relayExit = none) (hw : (run init ops).down.wire = .openStream id :: w) :
    (relayOnFrame connect wr { run init ops with down := (run init ops).down.pop } (.openStream id)).1 =
      if (run init ops).targets.card < maxStreams then .ok () else .error .protocol := by
  have hf : (ServerFrame.openStream id).Sendable := (wf_run ops).down_sendable.wire _ (by simp [hw])
  have hid0 : id ≠ 0 := hf.1.ne'
  have hopened : fitsFrame (ClientFrame.streamOpened id).encode = true :=
    ClientFrame.Sendable.fits (f := .streamOpened id) hf.2
  have hrefused : fitsFrame (ClientFrame.streamClosed id .connectFailed).encode = true :=
    ClientFrame.Sendable.fits (f := .streamClosed id .connectFailed) hf.2
  have hdup : id ∉ (run init ops).targets := fun hm =>
    ((flow_run ops id).unseen_of_open (by simp [St.flow, hr]) (down_head hw rfl)).1
      ((flow_run ops id).target_connected hm)
  by_cases hcap : (run init ops).targets.card < maxStreams
  · have hg : ¬ (id = 0 ∨ maxStreams ≤ (run init ops).targets.card ∨ id ∈ (run init ops).targets) := by
      rintro (h | h | h)
      · exact hid0 h
      · omega
      · exact hdup h
    cases connect <;> simp [relayOnFrame, hf.fits, hg, hcap, relaySendFrame, hopened, hrefused]
  · simp [relayOnFrame, hf.fits, hcap, not_lt.1 hcap]

/-- the Relay has room for the OpenStream this step takes, and does not answer it with a protocol error -/
def HasRoom (s : St) (o : Op) : Prop :=
  ∀ connect wr id w, o = .relayRecv connect wr → s.relayExit = none → s.down.wire = .openStream id :: w →
    s.targets.card < maxStreams ∧
    (relayOnFrame connect wr { s with down := s.down.pop } (.openStream id)).1 ≠ .error .protocol

/-- of the streams that the Server had not ended when it admitted the one this step opens, fewer than MAX_STREAMS are
connected -/
def FewUnended (s : St) (o : Op) : Prop :=
  ∀ connect wr id w, o = .relayRecv connect wr → s.relayExit = none → s.down.wire = .openStream id :: w →
    (s.admitted id ∩ s.connected).card < maxStreams

/-- **Stream capacity.** In a run, the Relay has room for every OpenStream it receives if and only if at each of them
fewer than MAX_STREAMS of the streams not yet ended by the Server at its admission are connected. That the Server
counted fewer than MAX_STREAMS writers plays no part. -/
theorem capacity_agreement (ops : List Op) :
    Machine.Along step HasRoom init ops ↔ Machine.Along step FewUnended init ops := by
  rw [Machine.along_iff, Machine.along_iff]
  have key : ∀ pre o, HasRoom (run init pre) o ↔ FewUnended (run init pre) o := by
    intro pre o
    constructor
    · intro h connect wr id w ho hr hw
      rw [← targets_eq pre hr hw]
      exact (h connect wr id w ho hr hw).1
    · intro h connect wr id w ho hr hw
      have hcap : (run init pre).targets.card < maxStreams := by
        rw [targets_eq pre hr hw]; exact h connect wr id w ho hr hw
      refine ⟨hcap, ?_⟩
      rw [open_answer pre connect wr hr hw, if_pos hcap]
      simp
  exact forall_congr' fun pre => forall_congr' fun o => forall_congr' fun post => imp_congr_right fun _ => key pre o

theorem along_last {ok : St → Op → Prop} {pre : List Op} {o : Op} (h : Machine.Along step ok init (pre ++ [o])) :
    ok (run init pre) o :=
  ((Machine.along_append init pre [o]).1 h).2.1

/-- 32 streams are opened and connected, sshd ends the first of them, and the Server, down to 31 writers, admits another -/
def fill : List Op :=
  (List.replicate 32 [.openStream, .relayRecv true .all, .serverRecv .all]).flatten ++
    [.sshdRead 1 (.bytes []), .sshdEnqueue 1, .relaySend, .serverRecv .all, .openStream]

/-- **The 33rd open ends the Relay loop.** The Server admitted it with 31 writers; the Relay still has 32 targets. -/
theorem capacity_exceeded :
    (run init (fill.take 100)).writers.card = 31 ∧ (run init fill).down.wire = [.openStream 33] ∧
    (run init fill).targets.card = 32 ∧
    (run init (fill ++ [.relayRecv true .all])).relayExit = some (.error .protocol) ∧
    ¬ ∀ ops, Machine.Along step HasRoom init ops := by
  have hw : (run init fill).down.wire = [.openStream 33] := by decide +kernel
  have hr : (run init fill).relayExit = none := by decide +kernel
  have hc : (run init fill).targets.card = 32 := by decide +kernel
  refine ⟨by decide +kernel, hw, hc, by decide +kernel, fun h => ?_⟩
  have hroom := (along_last (h (fill ++ [.relayRecv true .all]))) true .all 33 [] rfl hr hw
  rw [hc] at hroom
  exact absurd hroom.1 (by decide)

end OwlMux.Relay
