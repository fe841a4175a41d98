/-
One logical stream on its own: a two-party protocol between a Server with a caller and a Relay with sshd, over two FIFO
pipes that carry only this stream's frames. The multiplexer is many of them side by side.

- `Flow`: what both sides know about one stream, the frames of it on their way in each direction and the bytes read and
  delivered at each local end;
- `Flow.Move`: what can happen to it. Both loops are shared by all streams, so a flow also sees them end (`stay`);
- `Flow.Ok`: the invariant, with the agreement of both sides about the stream and the conservation of its bytes.

Results:
- `Flow.Move.ok`: every move keeps `Flow.Ok`;
- `flow_move`: each move of the joined loops is, seen from any stream, a move of its flow (or nothing);
- `flow_run`: `Flow.Ok` for every stream in every reachable state of the joined loops.
-/
import Mathlib.Tactic
import OwlMux.Relay.Moves

namespace OwlMux.Relay

/-- the bytes a list of frames carries -/
def ServerFrame.bytes : ServerFrame → List UInt8
  | .streamData _ d => (Base64Url.decode d).getD []
  | _ => []

def ClientFrame.bytes : ClientFrame → List UInt8
  | .streamData _ d => (Base64Url.decode d).getD []
  | _ => []

structure Flow where
  /-- the Server has admitted the stream -/
  known : Prop
  /-- how the loopback connect ended -/
  connected : Prop
  refused : Prop
  /-- the stream is in `targets`, in `writers` -/
  target : Prop
  writing : Prop
  callerReader : Bool
  sshdReader : Bool
  down : List ServerFrame
  up : List ClientFrame
  callerRead : List UInt8
  callerGot : List UInt8
  sshdRead : List UInt8
  sshdGot : List UInt8
  /-- the loops are running -/
  serverUp : Bool
  relayUp : Bool

namespace Flow

inductive Move (id : ℕ) (v : Flow) : Flow → Prop
  | stay (su ru : Bool) (hs : su = true → v.serverUp = true) (hr : ru = true → v.relayUp = true) :
      Move id v { v with serverUp := su, relayUp := ru }
  | admitted (hk : ¬ v.known) :
      Move id v { v with known := True, writing := True, callerReader := true, down := v.down ++ [.openStream id] }
  | callerData (b : List UInt8) (hr : v.callerReader = true) :
      Move id v { v with
        down := v.down ++ [.streamData id (Base64Url.encode b)], callerRead := v.callerRead ++ b }
  | callerEnd (f : ServerFrame) (hr : v.callerReader = true) (hf : f.closing = true) :
      Move id v { v with down := v.down ++ [f], callerReader := false }
  | sshdData (b : List UInt8) (hr : v.sshdReader = true) :
      Move id v { v with up := v.up ++ [.streamData id (Base64Url.encode b)], sshdRead := v.sshdRead ++ b }
  | sshdEnd (f : ClientFrame) (hr : v.sshdReader = true) (hf : f.closing = true) :
      Move id v { v with up := v.up ++ [f], sshdReader := false }
  | serverOpened (r : List ClientFrame) (hu : v.up = .streamOpened id :: r) : Move id v { v with up := r }
  | serverData (d : Text) (b : List UInt8) (r : List ClientFrame) (he : v.serverUp = true)
      (hu : v.up = .streamData id d :: r) (hb : Base64Url.decode d = some b) :
      Move id v { v with up := r, callerGot := v.callerGot ++ b }
  | serverCut (d : Text) (b : List UInt8) (k : ℕ) (r : List ClientFrame) (he : v.serverUp = true)
      (hu : v.up = .streamData id d :: r) (hb : Base64Url.decode d = some b) :
      Move id v { v with up := r, callerGot := v.callerGot ++ b.take k, serverUp := false }
  | serverEnd (f : ClientFrame) (r : List ClientFrame) (hu : v.up = f :: r) (hf : f.closing = true) :
      Move id v { v with up := r, writing := False }
  | serverFail (f : ClientFrame) (r : List ClientFrame) (hu : v.up = f :: r) : Move id v { v with up := r, serverUp := false }
  | connect (r : List ServerFrame) (he : v.relayUp = true) (hd : v.down = .openStream id :: r) :
      Move id v { v with
        down := r, up := v.up ++ [.streamOpened id], connected := True, target := True, sshdReader := true }
  | refuse (r : List ServerFrame) (he : v.relayUp = true) (hd : v.down = .openStream id :: r) :
      Move id v { v with down := r, up := v.up ++ [.streamClosed id .connectFailed], refused := True }
  | relayData (d : Text) (b : List UInt8) (r : List ServerFrame) (he : v.relayUp = true)
      (hd : v.down = .streamData id d :: r) (hb : Base64Url.decode d = some b) :
      Move id v { v with down := r, sshdGot := v.sshdGot ++ b }
  | relayCut (d : Text) (b : List UInt8) (k : ℕ) (r : List ServerFrame) (he : v.relayUp = true)
      (hd : v.down = .streamData id d :: r) (hb : Base64Url.decode d = some b) :
      Move id v { v with down := r, sshdGot := v.sshdGot ++ b.take k, relayUp := false }
  | relayEnd (f : ServerFrame) (r : List ServerFrame) (he : v.relayUp = true) (hd : v.down = f :: r)
      (hf : f.closing = true) : Move id v { v with down := r, target := False }
  | relayFail (f : ServerFrame) (r : List ServerFrame) (hd : v.down = f :: r) : Move id v { v with down := r, relayUp := false }

/-- agreement of both sides about one stream, and conservation of its bytes -/
structure Ok (id : ℕ) (v : Flow) : Prop where
  /-- nothing happens under an id that was not admitted -/
  fresh : ¬ v.known → v.down = [] ∧ v.callerReader = false ∧ ¬ v.writing ∧ ¬ v.connected ∧
    ¬ v.refused
  /-- the end of a direction is its last frame, and its reader has returned -/
  down_last : Lane.OnlyLast ServerFrame.closing v.down
  down_reader : v.callerReader = true → ∀ f ∈ v.down, f.closing = false
  up_last : Lane.OnlyLast ClientFrame.closing v.up
  up_reader : v.sshdReader = true → ∀ f ∈ v.up, f.closing = false
  /-- the Server has forgotten the stream: the Relay sends nothing more for it -/
  gone : ¬ v.writing → v.up = [] ∧ v.sshdReader = false
  /-- OpenStream is the first frame of its stream -/
  open_first : .openStream id ∉ v.down.tail
  target_connected : v.target → v.connected
  once : v.connected → ¬ v.refused
  /-- the Relay has not yet seen the OpenStream -/
  unseen : v.relayUp = true → v.known → ¬ v.connected → ¬ v.refused →
    (∃ r, v.down = .openStream id :: r) ∧ v.up = [] ∧ v.sshdReader = false ∧ v.writing
  seen : v.relayUp = true → v.connected ∨ v.refused → .openStream id ∉ v.down
  /-- the Relay has forgotten a connected stream: the Server sends nothing more for it -/
  removed : v.relayUp = true → v.connected → ¬ v.target → v.down = [] ∧ v.callerReader = false
  /-- bytes read are delivered or on their way, in order -/
  down_bytes : v.relayUp = true → v.sshdGot ++ v.down.flatMap ServerFrame.bytes = v.callerRead
  down_head : v.sshdGot <+: v.callerRead
  up_bytes : v.serverUp = true → v.callerGot ++ v.up.flatMap ClientFrame.bytes = v.sshdRead
  up_head : v.callerGot <+: v.sshdRead

theorem mem_tail_append {F : Type*} {l : List F} {f g : F} (h : f ∈ (l ++ [g]).tail) : f ∈ l.tail ∨ f = g := by
  cases l with
  | nil => simp at h
  | cons a l => simpa using h

variable {id : ℕ} {v v' : Flow}

theorem Ok.known_of_reader (h : v.Ok id) (hr : v.callerReader = true) : v.known := by
  by_contra hk
  have := (h.fresh hk).2.1
  simp [this] at hr

theorem Ok.known_of_down (h : v.Ok id) {f : ServerFrame} {r : List ServerFrame} (hd : v.down = f :: r) :
    v.known := by
  by_contra hk
  have := (h.fresh hk).1
  simp [this] at hd

/-- an OpenStream at the head has not been answered -/
theorem Ok.unseen_of_open (h : v.Ok id) (he : v.relayUp = true) {r : List ServerFrame}
    (hd : v.down = .openStream id :: r) :
    ¬ v.connected ∧ ¬ v.refused ∧ v.up = [] ∧ v.sshdReader = false ∧ v.writing := by
  have hs : ¬ (v.connected ∨ v.refused) := fun hc => h.seen he hc (by rw [hd]; exact List.mem_cons_self)
  have hc : ¬ v.connected := fun hc => hs (Or.inl hc)
  have hr : ¬ v.refused := fun hr => hs (Or.inr hr)
  obtain ⟨-, h1, h2, h3⟩ := h.unseen he (h.known_of_down hd) hc hr
  exact ⟨hc, hr, h1, h2, h3⟩

/-- a frame other than OpenStream at the head: the Relay has answered the OpenStream before -/
theorem Ok.seen_of_head (h : v.Ok id) (he : v.relayUp = true) {f : ServerFrame} {r : List ServerFrame}
    (hd : v.down = f :: r) (hf : f ≠ .openStream id) : ¬ (¬ v.connected ∧ ¬ v.refused) := by
  rintro ⟨hc, hr⟩
  obtain ⟨⟨r', h1⟩, -⟩ := h.unseen he (h.known_of_down hd) hc hr
  rw [hd] at h1
  exact hf (List.cons.inj h1).1

/-- taking the head frame off the down pipe, at a Relay that has answered the OpenStream or is leaving -/
theorem Ok.open_first_tail (h : v.Ok id) {f : ServerFrame} {r : List ServerFrame} (hd : v.down = f :: r) :
    .openStream id ∉ r.tail ∧ .openStream id ∉ r := by
  have := h.open_first
  rw [hd] at this
  exact ⟨fun hm => this (List.mem_of_mem_tail hm), this⟩

theorem Ok.not_open_snoc (h : v.Ok id) {g : ServerFrame} (hg : g ≠ .openStream id) :
    .openStream id ∉ (v.down ++ [g]).tail := by
  intro hm
  rcases mem_tail_append hm with hm | hm
  · exact h.open_first hm
  · exact hg hm.symm

theorem closing_ne_open {f : ServerFrame} (hf : f.closing = true) : f ≠ .openStream id := by
  rintro rfl; simp [ServerFrame.closing] at hf

theorem bytes_of_closing {f : ServerFrame} (hf : f.closing = true) : f.bytes = [] := by
  cases f <;> simp_all [ServerFrame.closing, ServerFrame.bytes]

theorem bytes_of_closing_up {f : ClientFrame} (hf : f.closing = true) : f.bytes = [] := by
  cases f <;> simp_all [ClientFrame.closing, ClientFrame.bytes]

@[simp] theorem bytes_data (b : List UInt8) : (ServerFrame.streamData id (Base64Url.encode b)).bytes = b := by
  simp [ServerFrame.bytes]

@[simp] theorem bytes_data_up (b : List UInt8) : (ClientFrame.streamData id (Base64Url.encode b)).bytes = b := by
  simp [ClientFrame.bytes]

/-- **A move keeps the agreement about its stream and the conservation of its bytes.** -/
theorem Move.ok (m : Move id v v') (h : v.Ok id) : v'.Ok id := by
  cases m with
  | stay su ru hs hr =>
    exact { h with
      unseen := fun he => h.unseen (hr he), seen := fun he => h.seen (hr he), removed := fun he => h.removed (hr he)
      down_bytes := fun he => h.down_bytes (hr he), up_bytes := fun he => h.up_bytes (hs he) }
  | admitted hk =>
    obtain ⟨hd, -, hw, hc, hr⟩ := h.fresh hk
    obtain ⟨hu, hs⟩ := h.gone hw
    refine { h with
      fresh := by simp, gone := by simp
      down_last := Lane.OnlyLast.append (by simp [hd])
      down_reader := by simp [hd, ServerFrame.closing]
      open_first := by simp [hd]
      unseen := fun _ _ _ _ => ⟨⟨[], by simp [hd]⟩, hu, hs, trivial⟩
      seen := by simp [hc, hr]
      removed := by simp [hc]
      down_bytes := fun he => ?_ }
    simpa [hd, ServerFrame.bytes] using h.down_bytes he
  | callerData b hr =>
    have hk := h.known_of_reader hr
    refine { h with
      fresh := by simp [hk]
      down_last := Lane.OnlyLast.append (h.down_reader hr)
      down_reader := fun _ f hf => ?_
      open_first := h.not_open_snoc (by simp)
      unseen := fun he hk hc hf => ?_
      seen := fun he hs => by simpa using h.seen he hs
      removed := fun he hc ht => by simp [(h.removed he hc ht).2] at hr
      down_bytes := fun he => ?_
      down_head := h.down_head.trans (List.prefix_append _ _) }
    · rcases List.mem_append.1 hf with hf | hf
      · exact h.down_reader hr f hf
      · simp only [List.mem_singleton] at hf; subst hf; rfl
    · obtain ⟨⟨r, h1⟩, h2⟩ := h.unseen he hk hc hf
      exact ⟨⟨r ++ [.streamData id (Base64Url.encode b)], by simp [h1]⟩, h2⟩
    · simp [← h.down_bytes he, List.flatMap_append]
  | callerEnd f hr hf =>
    have hk := h.known_of_reader hr
    refine { h with
      fresh := by simp [hk]
      down_last := Lane.OnlyLast.append (h.down_reader hr)
      down_reader := by simp
      open_first := h.not_open_snoc (closing_ne_open hf)
      unseen := fun he hk hc hf => ?_
      seen := fun he hs => ?_
      removed := fun he hc ht => by simp [(h.removed he hc ht).2] at hr
      down_bytes := fun he => ?_ }
    · obtain ⟨⟨r, h1⟩, h2⟩ := h.unseen he hk hc hf
      exact ⟨⟨r ++ [f], by simp [h1]⟩, h2⟩
    · simpa [(closing_ne_open hf).symm] using h.seen he hs
    · simp [← h.down_bytes he, List.flatMap_append, bytes_of_closing hf]
  | sshdData b hr =>
    have hw : v.writing := by
      by_contra hw; simp [(h.gone hw).2] at hr
    refine { h with
      up_last := Lane.OnlyLast.append (h.up_reader hr)
      up_reader := fun _ f hf => ?_
      gone := by simp [hw]
      unseen := fun he hk hc hf => by simp [(h.unseen he hk hc hf).2.2.1] at hr
      up_bytes := fun he => ?_
      up_head := h.up_head.trans (List.prefix_append _ _) }
    · rcases List.mem_append.1 hf with hf | hf
      · exact h.up_reader hr f hf
      · simp only [List.mem_singleton] at hf; subst hf; rfl
    · simp [← h.up_bytes he, List.flatMap_append]
  | sshdEnd f hr hf =>
    have hw : v.writing := by
      by_contra hw; simp [(h.gone hw).2] at hr
    refine { h with
      up_last := Lane.OnlyLast.append (h.up_reader hr)
      up_reader := by simp
      gone := by simp [hw]
      unseen := fun he hk hc hf => by simp [(h.unseen he hk hc hf).2.2.1] at hr
      up_bytes := fun he => ?_ }
    simp [← h.up_bytes he, List.flatMap_append, bytes_of_closing_up hf]
  | serverOpened r hu =>
    refine { h with
      up_last := (hu ▸ h.up_last).of_cons
      up_reader := fun hr f hf => h.up_reader hr f (by rw [hu]; exact List.mem_cons_of_mem _ hf)
      gone := fun hw => by simp [(h.gone hw).1] at hu
      unseen := fun he hk hc hf => by simp [(h.unseen he hk hc hf).2.1] at hu
      up_bytes := fun he => ?_ }
    simpa [hu, ClientFrame.bytes] using h.up_bytes he
  | serverData d b r he hu hb =>
    refine { h with
      up_last := (hu ▸ h.up_last).of_cons
      up_reader := fun hr f hf => h.up_reader hr f (by rw [hu]; exact List.mem_cons_of_mem _ hf)
      gone := fun hw => by simp [(h.gone hw).1] at hu
      unseen := fun he hk hc hf => by simp [(h.unseen he hk hc hf).2.1] at hu
      up_bytes := fun he => ?_
      up_head := ?_ }
    · simpa [hu, ClientFrame.bytes, hb] using h.up_bytes he
    · have := h.up_bytes he
      simp only [hu, List.flatMap_cons, ClientFrame.bytes, hb, Option.getD_some, ← List.append_assoc] at this
      exact ⟨_, this⟩
  | serverCut d b k r he hu hb =>
    refine { h with
      up_last := (hu ▸ h.up_last).of_cons
      up_reader := fun hr f hf => h.up_reader hr f (by rw [hu]; exact List.mem_cons_of_mem _ hf)
      gone := fun hw => by simp [(h.gone hw).1] at hu
      unseen := fun he hk hc hf => by simp [(h.unseen he hk hc hf).2.1] at hu
      up_bytes := by simp
      up_head := ?_ }
    have := h.up_bytes he
    simp only [hu, List.flatMap_cons, ClientFrame.bytes, hb, Option.getD_some] at this
    refine ⟨b.drop k ++ r.flatMap ClientFrame.bytes, ?_⟩
    rw [← this, List.append_assoc, ← List.append_assoc (b.take k), List.take_append_drop]
  | serverEnd f r hu hf =>
    have hr : r = [] := (hu ▸ h.up_last).eq_nil hf
    have hs : v.sshdReader = false := by
      by_contra hs
      simp [h.up_reader (by simpa using hs) f (by simp [hu])] at hf
    refine { h with
      up_last := (hu ▸ h.up_last).of_cons
      up_reader := by simp [hs]
      fresh := fun hk => by simp [(h.gone (h.fresh hk).2.2.1).1] at hu
      gone := fun _ => ⟨hr, hs⟩
      unseen := fun he hk hc hf => by simp [(h.unseen he hk hc hf).2.1] at hu
      up_bytes := fun he => ?_ }
    simpa [hu, bytes_of_closing_up hf] using h.up_bytes he
  | serverFail f r hu =>
    exact { h with
      up_last := (hu ▸ h.up_last).of_cons
      up_reader := fun hr f hf => h.up_reader hr f (by rw [hu]; exact List.mem_cons_of_mem _ hf)
      gone := fun hw => by simp [(h.gone hw).1] at hu
      unseen := fun he hk hc hf => by simp [(h.unseen he hk hc hf).2.1] at hu
      up_bytes := by simp }
  | connect r he hd =>
    obtain ⟨hc, hf, hu, hs, hw⟩ := h.unseen_of_open he hd
    obtain ⟨o1, o2⟩ := h.open_first_tail hd
    refine { h with
      fresh := fun hk => (hk (h.known_of_down hd)).elim
      down_last := (hd ▸ h.down_last).of_cons
      down_reader := fun hr f hf => h.down_reader hr f (by rw [hd]; exact List.mem_cons_of_mem _ hf)
      up_last := by simp [hu, Lane.OnlyLast]
      up_reader := by simp [hu, ClientFrame.closing]
      gone := by simp [hw]
      open_first := o1
      target_connected := by simp
      once := by simp [hf]
      unseen := by simp
      seen := fun _ _ => o2
      removed := by simp
      down_bytes := fun he => ?_
      up_bytes := fun he => ?_ }
    · simpa [hd, ServerFrame.bytes] using h.down_bytes he
    · simpa [hu, ClientFrame.bytes] using h.up_bytes he
  | refuse r he hd =>
    obtain ⟨hc, hf, hu, hs, hw⟩ := h.unseen_of_open he hd
    obtain ⟨o1, o2⟩ := h.open_first_tail hd
    refine { h with
      fresh := fun hk => (hk (h.known_of_down hd)).elim
      down_last := (hd ▸ h.down_last).of_cons
      down_reader := fun hr f hf => h.down_reader hr f (by rw [hd]; exact List.mem_cons_of_mem _ hf)
      up_last := by simp [hu, Lane.OnlyLast]
      up_reader := by simp [hs]
      gone := by simp [hw]
      open_first := o1
      once := by simp [hc]
      unseen := by simp
      seen := fun _ _ => o2
      removed := by simp [hc]
      down_bytes := fun he => ?_
      up_bytes := fun he => ?_ }
    · simpa [hd, ServerFrame.bytes] using h.down_bytes he
    · simpa [hu, ClientFrame.bytes] using h.up_bytes he
  | relayData d b r he hd hb =>
    obtain ⟨o1, o2⟩ := h.open_first_tail hd
    have hs := h.seen_of_head he hd (by simp)
    refine { h with
      fresh := fun hk => (hk (h.known_of_down hd)).elim
      down_last := (hd ▸ h.down_last).of_cons
      down_reader := fun hr f hf => h.down_reader hr f (by rw [hd]; exact List.mem_cons_of_mem _ hf)
      open_first := o1
      unseen := fun _ _ hc hf => (hs ⟨hc, hf⟩).elim
      seen := fun _ _ => o2
      removed := fun he hc ht => by simp [(h.removed he hc ht).1] at hd
      down_bytes := fun he => ?_
      down_head := ?_ }
    · simpa [hd, ServerFrame.bytes, hb] using h.down_bytes he
    · have := h.down_bytes he
      simp only [hd, List.flatMap_cons, ServerFrame.bytes, hb, Option.getD_some, ← List.append_assoc] at this
      exact ⟨_, this⟩
  | relayCut d b k r he hd hb =>
    obtain ⟨o1, o2⟩ := h.open_first_tail hd
    refine { h with
      fresh := fun hk => (hk (h.known_of_down hd)).elim
      down_last := (hd ▸ h.down_last).of_cons
      down_reader := fun hr f hf => h.down_reader hr f (by rw [hd]; exact List.mem_cons_of_mem _ hf)
      open_first := o1
      unseen := by simp
      seen := by simp
      removed := by simp
      down_bytes := by simp
      down_head := ?_ }
    have := h.down_bytes he
    simp only [hd, List.flatMap_cons, ServerFrame.bytes, hb, Option.getD_some] at this
    refine ⟨b.drop k ++ r.flatMap ServerFrame.bytes, ?_⟩
    rw [← this, List.append_assoc, ← List.append_assoc (b.take k), List.take_append_drop]
  | relayEnd f r he hd hf =>
    obtain ⟨o1, o2⟩ := h.open_first_tail hd
    have hs := h.seen_of_head he hd (closing_ne_open hf)
    have hr : r = [] := (hd ▸ h.down_last).eq_nil hf
    have hcr : v.callerReader = false := by
      by_contra hs
      simp [h.down_reader (by simpa using hs) f (by simp [hd])] at hf
    refine { h with
      fresh := fun hk => (hk (h.known_of_down hd)).elim
      down_last := (hd ▸ h.down_last).of_cons
      down_reader := by simp [hcr]
      open_first := o1
      target_connected := by simp
      unseen := fun _ _ hc hf => (hs ⟨hc, hf⟩).elim
      seen := fun _ _ => o2
      removed := fun _ _ _ => ⟨hr, hcr⟩
      down_bytes := fun he => ?_ }
    simpa [hd, bytes_of_closing hf] using h.down_bytes he
  | relayFail f r hd =>
    obtain ⟨o1, o2⟩ := h.open_first_tail hd
    exact { h with
      fresh := fun hk => (hk (h.known_of_down hd)).elim
      down_last := (hd ▸ h.down_last).of_cons
      down_reader := fun hr f hf => h.down_reader hr f (by rw [hd]; exact List.mem_cons_of_mem _ hf)
      open_first := o1
      unseen := by simp
      seen := by simp
      removed := by simp
      down_bytes := by simp }

end Flow

/-! ## The multiplexer is one flow per stream -/

/-- what the joined loops hold for stream `id` -/
def St.flow (s : St) (id : ℕ) : Flow :=
  { known := 1 ≤ id ∧ id < s.nextStreamId
    connected := id ∈ s.connected
    refused := id ∈ s.refused
    target := id ∈ s.targets
    writing := id ∈ s.writers
    callerReader := (s.streams id).callerReader
    sshdReader := (s.streams id).sshdReader
    down := s.down.transit ServerFrame.stream id
    up := s.up.transit ClientFrame.stream id
    callerRead := (s.streams id).callerRead
    callerGot := (s.streams id).callerGot
    sshdRead := (s.streams id).sshdRead
    sshdGot := (s.streams id).sshdGot
    serverUp := s.serverExit.isNone
    relayUp := s.relayExit.isNone }

variable {s s' : St}

/-- a stream whose data did not change sees at most the loops end -/
theorem flow_stay {j : ℕ} (he : s'.flow j = { s.flow j with serverUp := s'.serverExit.isNone, relayUp := s'.relayExit.isNone })
    (hs : s'.serverExit = none → s.serverExit = none) (hr : s'.relayExit = none → s.relayExit = none) :
    Flow.Move j (s.flow j) (s'.flow j) := by
  rw [he]
  refine Flow.Move.stay _ _ (fun h => ?_) (fun h => ?_)
  · simpa [St.flow] using hs (by simpa using h)
  · simpa [St.flow] using hr (by simpa using h)

/-- a frame of stream `id` at the head of the wire is at the head of its flow -/
theorem down_head {f : ServerFrame} {w : List ServerFrame} {id : ℕ} (hw : s.down.wire = f :: w) (hf : f.stream = some id) :
    s.down.transit ServerFrame.stream id = f :: s.down.pop.transit ServerFrame.stream id :=
  Lane.transit_pop_self hw hf

theorem up_head {f : ClientFrame} {w : List ClientFrame} {id : ℕ} (hw : s.up.wire = f :: w) (hf : f.stream = some id) :
    s.up.transit ClientFrame.stream id = f :: s.up.pop.transit ClientFrame.stream id :=
  Lane.transit_pop_self hw hf

theorem down_pop_ne {f : ServerFrame} {w : List ServerFrame} {j : ℕ} (hw : s.down.wire = f :: w)
    (hf : f.stream ≠ some j) : s.down.pop.transit ServerFrame.stream j = s.down.transit ServerFrame.stream j :=
  Lane.transit_pop_ne hw hf

theorem up_pop_ne {f : ClientFrame} {w : List ClientFrame} {j : ℕ} (hw : s.up.wire = f :: w)
    (hf : f.stream ≠ some j) : s.up.pop.transit ClientFrame.stream j = s.up.transit ClientFrame.stream j :=
  Lane.transit_pop_ne hw hf

theorem down_push_ne {f : ServerFrame} {j : ℕ} (hf : f.stream ≠ some j) :
    (s.down.push f).transit ServerFrame.stream j = s.down.transit ServerFrame.stream j :=
  Lane.transit_push_ne _ hf

theorem up_push_ne {f : ClientFrame} {j : ℕ} (hf : f.stream ≠ some j) :
    (s.up.push f).transit ClientFrame.stream j = s.up.transit ClientFrame.stream j :=
  Lane.transit_push_ne _ hf

theorem up_push {id : ℕ} {f : ClientFrame} (h : Wf s) (hf : f.stream = some id)
    (hu : s.up.transit ClientFrame.stream id = []) :
    (s.up.push f).transit ClientFrame.stream id = s.up.transit ClientFrame.stream id ++ [f] := by
  refine Lane.transit_push_self hf (fun g hg hk => ?_) (Lane.hand_eq_none_of_transit h.up_keyed hu)
  have := Lane.mem_transit_of_queue hg hk
  simp [hu] at this

theorem down_push {id : ℕ} {f : ServerFrame} (h : Wf s) (hf : f.stream = some id)
    (hd : s.down.transit ServerFrame.stream id = []) :
    (s.down.push f).transit ServerFrame.stream id = s.down.transit ServerFrame.stream id ++ [f] := by
  refine Lane.transit_push_self hf (fun g hg hk => ?_) (Lane.hand_eq_none_of_transit h.down_keyed hd)
  have := Lane.mem_transit_of_queue hg hk
  simp [hd] at this

/-- **Projection.** A move of the joined loops is, seen from any one stream, a move of its flow. -/
theorem flow_move (h : Wf s) (hok : ∀ id, (s.flow id).Ok id) (m : Move s s') (j : ℕ) :
    Flow.Move j (s.flow j) (s'.flow j) := by
  cases m with
  | flags b l se re hs hr => exact flow_stay rfl hs hr
  | callerGone id | sshdGone id =>
    refine flow_stay ?_ (fun h => h) (fun h => h)
    by_cases hj : j = id
    · subst hj; simp [St.flow, St.modify, Stream.callerDrops, Stream.sshdDrops]
    · simp [St.flow, St.modify, hj]
  | admitted he hcap hid =>
    by_cases hj : j = s.nextStreamId
    · subst hj
      have hk : ¬ (s.flow s.nextStreamId).known := by simp [St.flow]
      have hd : s.down.transit ServerFrame.stream s.nextStreamId = [] := ((hok _).fresh hk).1
      have hp := down_push (f := .openStream s.nextStreamId) h rfl hd
      convert Flow.Move.admitted hk using 1
      simp [St.flow, admitStream, St.modify, Stream.callerStarts, hp, Nat.succ_le_of_lt h.next_pos]
    · refine flow_stay ?_ (fun h => h) (fun h => h)
      have hp : (s.down.push (.openStream s.nextStreamId)).transit ServerFrame.stream j =
          s.down.transit ServerFrame.stream j := down_push_ne (by simpa [ServerFrame.stream] using Ne.symm hj)
      have hlt : j < s.nextStreamId + 1 ↔ j < s.nextStreamId := by omega
      simp [St.flow, admitStream, St.modify, hj, hp, hlt]
  | callerData id b hr hh h1 h2 =>
    by_cases hj : j = id
    · subst hj
      have hp : (s.down.hold j (.streamData j (Base64Url.encode b))).transit ServerFrame.stream j =
          s.down.transit ServerFrame.stream j ++ [.streamData j (Base64Url.encode b)] := Lane.transit_hold_self hh rfl
      convert Flow.Move.callerData (v := s.flow j) b hr using 1
      simp [St.flow, St.modify, Stream.callerReads, hp]
    · refine flow_stay ?_ (fun h => h) (fun h => h)
      simp [St.flow, St.modify, hj, Lane.transit_hold_ne]
  | callerEnd id f hr hh hf =>
    obtain ⟨h1, h2, -⟩ := endFrame_server hf
    by_cases hj : j = id
    · subst hj
      have hp := Lane.transit_hold_self hh h1
      convert Flow.Move.callerEnd (v := s.flow j) f hr h2 using 1
      simp [St.flow, St.modify, Stream.callerEnds, hp]
    · refine flow_stay ?_ (fun h => h) (fun h => h)
      simp [St.flow, St.modify, hj, Lane.transit_hold_ne]
  | callerEnqueue id =>
    refine flow_stay ?_ (fun h => h) (fun h => h)
    simp [St.flow, Lane.transit_enqueue h.down_keyed]
  | serverSend f q hq =>
    refine flow_stay ?_ (fun h => h) (fun h => h)
    simp [St.flow, Lane.transit_flush]
  | ping hn =>
    refine flow_stay ?_ (fun h => h) (fun h => h)
    have := down_push_ne (s := s) (j := j) (f := .ping (s.pingNonce + 1)) (by simp [ServerFrame.stream])
    simp [St.flow, this]
  | serverOpened id w hw =>
    by_cases hj : j = id
    · subst hj
      exact Flow.Move.serverOpened (v := s.flow j) _ (up_head hw rfl)
    · refine flow_stay ?_ (fun h => h) (fun h => h)
      have := up_pop_ne (j := j) hw (by simpa [ClientFrame.stream] using Ne.symm hj)
      simp [St.flow, this]
  | serverPong n w hw hn =>
    refine flow_stay ?_ (fun h => h) (fun h => h)
    have := up_pop_ne (j := j) hw (by simp [ClientFrame.stream])
    simp [St.flow, this]
  | serverData id d b w he hw hm hb =>
    by_cases hj : j = id
    · subst hj
      convert Flow.Move.serverData (v := s.flow j) d b _ (by simp [St.flow, he]) (up_head hw rfl) hb using 1
      simp [St.flow, St.modify, Stream.callerGets]
    · refine flow_stay ?_ (fun h => h) (fun h => h)
      have := up_pop_ne (j := j) hw (by simpa [ClientFrame.stream] using Ne.symm hj)
      simp [St.flow, St.modify, hj, this]
  | serverCut id d b k w he hw hm hb =>
    by_cases hj : j = id
    · subst hj
      convert Flow.Move.serverCut (v := s.flow j) d b k _ (by simp [St.flow, he]) (up_head hw rfl) hb using 1
      simp [St.flow, St.modify, Stream.callerGets]
    · refine flow_stay ?_ (fun h => by simp at h) (fun h => h)
      have := up_pop_ne (j := j) hw (by simpa [ClientFrame.stream] using Ne.symm hj)
      simp [St.flow, St.modify, hj, this]
  | serverEnd id f w he hw hf hid =>
    by_cases hj : j = id
    · subst hj
      convert Flow.Move.serverEnd (v := s.flow j) f _ (up_head hw hid) hf using 1
      simp [St.flow]
    · refine flow_stay ?_ (fun h => h) (fun h => h)
      have := up_pop_ne (j := j) hw (by rw [hid]; simpa using Ne.symm hj)
      simp [St.flow, hj, this]
  | serverFail f e w hw hf hid hp =>
    by_cases hj : f.stream = some j
    · exact Flow.Move.serverFail (v := s.flow j) f _ (up_head hw hj)
    · refine flow_stay ?_ (fun h => by simp at h) (fun h => h)
      have := up_pop_ne (j := j) hw hj
      simp [St.flow, this]
  | sshdData id b hr hh h1 h2 =>
    by_cases hj : j = id
    · subst hj
      have hp : (s.up.hold j (.streamData j (Base64Url.encode b))).transit ClientFrame.stream j =
          s.up.transit ClientFrame.stream j ++ [.streamData j (Base64Url.encode b)] := Lane.transit_hold_self hh rfl
      convert Flow.Move.sshdData (v := s.flow j) b hr using 1
      simp [St.flow, St.modify, Stream.sshdReads, hp]
    · refine flow_stay ?_ (fun h => h) (fun h => h)
      simp [St.flow, St.modify, hj, Lane.transit_hold_ne]
  | sshdEnd id f hr hh hf =>
    obtain ⟨h1, h2, -⟩ := endFrame_client hf
    by_cases hj : j = id
    · subst hj
      have hp := Lane.transit_hold_self hh h1
      convert Flow.Move.sshdEnd (v := s.flow j) f hr h2 using 1
      simp [St.flow, St.modify, Stream.sshdEnds, hp]
    · refine flow_stay ?_ (fun h => h) (fun h => h)
      simp [St.flow, St.modify, hj, Lane.transit_hold_ne]
  | sshdEnqueue id =>
    refine flow_stay ?_ (fun h => h) (fun h => h)
    simp [St.flow, Lane.transit_enqueue h.up_keyed]
  | relaySend f q hq =>
    refine flow_stay ?_ (fun h => h) (fun h => h)
    simp [St.flow, Lane.transit_flush]
  | connect id w he hw hcap hid =>
    by_cases hj : j = id
    · subst hj
      have hd := down_head hw rfl
      have hup : (s.flow j).relayUp = true := by simp [St.flow, he]
      have hu := ((hok j).unseen_of_open hup hd).2.2.1
      have hp := up_push (f := .streamOpened j) h rfl hu
      convert Flow.Move.connect (v := s.flow j) _ hup hd using 1
      simp [St.flow, St.modify, Stream.sshdStarts, hp]
    · refine flow_stay ?_ (fun h => h) (fun h => h)
      have h1 := down_pop_ne (j := j) hw (by simpa [ServerFrame.stream] using Ne.symm hj)
      have h2 := up_push_ne (s := s) (j := j) (f := .streamOpened id)
        (by simpa [ClientFrame.stream] using Ne.symm hj)
      simp [St.flow, St.modify, hj, h1, h2]
  | refuse id w he hw hcap hid =>
    by_cases hj : j = id
    · subst hj
      have hd := down_head hw rfl
      have hup : (s.flow j).relayUp = true := by simp [St.flow, he]
      have hu := ((hok j).unseen_of_open hup hd).2.2.1
      have hp := up_push (f := .streamClosed j .connectFailed) h rfl hu
      convert Flow.Move.refuse (v := s.flow j) _ hup hd using 1
      simp [St.flow, hp]
    · refine flow_stay ?_ (fun h => h) (fun h => h)
      have h1 := down_pop_ne (j := j) hw (by simpa [ServerFrame.stream] using Ne.symm hj)
      have h2 := up_push_ne (s := s) (j := j) (f := .streamClosed id .connectFailed)
        (by simpa [ClientFrame.stream] using Ne.symm hj)
      simp [St.flow, hj, h1, h2]
  | relayData id d b w he hw hm hb =>
    by_cases hj : j = id
    · subst hj
      convert Flow.Move.relayData (v := s.flow j) d b _ (by simp [St.flow, he]) (down_head hw rfl) hb using 1
      simp [St.flow, St.modify, Stream.sshdGets]
    · refine flow_stay ?_ (fun h => h) (fun h => h)
      have := down_pop_ne (j := j) hw (by simpa [ServerFrame.stream] using Ne.symm hj)
      simp [St.flow, St.modify, hj, this]
  | relayCut id d b k w he hw hm hb =>
    by_cases hj : j = id
    · subst hj
      convert Flow.Move.relayCut (v := s.flow j) d b k _ (by simp [St.flow, he]) (down_head hw rfl) hb using 1
      simp [St.flow, St.modify, Stream.sshdGets]
    · refine flow_stay ?_ (fun h => h) (fun h => by simp at h)
      have := down_pop_ne (j := j) hw (by simpa [ServerFrame.stream] using Ne.symm hj)
      simp [St.flow, St.modify, hj, this]
  | relayEnd id f w he hw hf hid =>
    by_cases hj : j = id
    · subst hj
      convert Flow.Move.relayEnd (v := s.flow j) f _ (by simp [St.flow, he]) (down_head hw hid) hf using 1
      simp [St.flow]
    · refine flow_stay ?_ (fun h => h) (fun h => h)
      have := down_pop_ne (j := j) hw (by rw [hid]; simpa using Ne.symm hj)
      simp [St.flow, hj, this]
  | pong n w he hw =>
    refine flow_stay ?_ (fun h => h) (fun h => h)
    have h1 := down_pop_ne (j := j) hw (by simp [ServerFrame.stream])
    have h2 := up_push_ne (s := s) (j := j) (f := .pong n) (by simp [ClientFrame.stream])
    simp [St.flow, h1, h2]
  | relayFail f e w hw hf hp =>
    by_cases hj : f.stream = some j
    · exact Flow.Move.relayFail (v := s.flow j) f _ (down_head hw hj)
    · refine flow_stay ?_ (fun h => h) (fun h => by simp at h)
      have := down_pop_ne (j := j) hw hj
      simp [St.flow, this]

theorem flow_init (id : ℕ) : (init.flow id).Ok id := by
  constructor
  case unseen => intro _ hk; simp only [St.flow, init] at hk; omega
  all_goals simp [St.flow, init, Lane.transit, Lane.OnlyLast]

/-- **Agreement in every reachable state**, for every stream -/
theorem flow_run (ops : List Op) (id : ℕ) : ((run init ops).flow id).Ok id := by
  refine run_inv_of_move (I := fun s => ∀ id, (s.flow id).Ok id) flow_init (fun s s' h m hok id => ?_) ops id
  exact (flow_move h hok m id).ok (hok id)

end OwlMux.Relay
