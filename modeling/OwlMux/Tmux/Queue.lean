/-
What stands in the event queue: chunks. Every event the adapter queues is a piece of one notification, cut to the size of a
terminal chunk, under the id of a pane. No operation of a workspace puts anything else there, whatever it returns and
whatever the target sends.

Results:
- `workspace_chunked`: the queue of an adapter holds chunks, in every state a workspace reaches;
- `nextEvent_chunk`: so does every event taken from it.
-/
import Mathlib.Tactic
import OwlMux.Tmux.Cutover

namespace OwlMux.Tmux

open OwlMux.Relay (Text byteLen)

variable {α β : Type} {s s' : St}

/-! ## Chunks -/

/-- output that fits a terminal chunk, of something that is named like a pane -/
def ControlEvent.Chunk : ControlEvent → Prop
  | .output p d => isPaneId p = true ∧ d.length ≤ attachmentMaxTerminalChunkBytes
  | _ => True

def Chunked (s : St) : Prop := ∀ e ∈ s.events, e.Chunk

theorem chunks_length {n : ℕ} {data c : Bytes} (h : c ∈ chunks n data) : 0 < c.length ∧ c.length ≤ n := by
  induction data using chunks.induct n with
  | case1 data hd =>
    rw [chunks, if_pos hd] at h
    cases h
  | case2 data hd ih =>
    rw [chunks, if_neg hd] at h
    obtain ⟨hne, hn⟩ := not_or.1 hd
    rcases List.mem_cons.1 h with rfl | h
    · have hpos := List.length_pos_of_ne_nil hne
      rw [List.length_take]
      omega
    · exact ih h

theorem parseNotification_pane {line : Bytes} {p : Text} {d : Bytes} (h : parseNotification line = .ok (.output p d)) :
    isPaneId p = true := by
  have hout : ∀ {p' d' : Bytes}, outputNotice p' d' = .ok (.output p d) → isPaneId p = true := by
    intro p' d' h
    obtain ⟨q, -, h⟩ := parsed_bind.1 h
    obtain ⟨u, hu, h⟩ := parsed_bind.1 h
    obtain ⟨data, -, h⟩ := parsed_bind.1 h
    split_ifs at h
    · cases h
    · cases h
      exact require_ok.1 hu
  unfold parseNotification at h
  dsimp only at h
  split at h
  · obtain ⟨x, -, h⟩ := parsed_bind.1 h
    exact hout h
  · split at h
    · obtain ⟨x, -, h⟩ := parsed_bind.1 h
      obtain ⟨y, -, h⟩ := parsed_bind.1 h
      obtain ⟨u, -, h⟩ := parsed_bind.1 h
      exact hout h
    · by_cases hexit : (stripNewline line = ascii "%exit" || startsWith (stripNewline line) (ascii "%exit ")) = true
      · rw [if_pos hexit] at h
        cases h
      · rw [if_neg hexit] at h
        split at h
        · obtain ⟨x, -, h⟩ := parsed_bind.1 h
          obtain ⟨u, -, h⟩ := parsed_bind.1 h
          cases h
        · split at h
          · obtain ⟨x, -, h⟩ := parsed_bind.1 h
            obtain ⟨u, -, h⟩ := parsed_bind.1 h
            cases h
          · split_ifs at h <;> cases h

/-! ## Operations -/

/-- whatever it returns, the operation leaves chunks in the queue -/
def KeepsChunks (x : Io α) : Prop := ∀ s, Chunked s → Chunked (x s).2

theorem KeepsChunks.bind {x : Io α} {f : α → Io β} (hx : KeepsChunks x) (hf : ∀ a, KeepsChunks (f a)) :
    KeepsChunks (x >>= f) := by
  intro s hs
  have h := hx s hs
  rw [bind_apply]
  revert h
  rcases x s with ⟨r, s₁⟩
  cases r with
  | ok a => exact hf a s₁
  | error e => exact id
  | waiting => exact id

theorem keepsChunks_pure (a : α) : KeepsChunks (Io.pure a) := fun _ hs => hs

theorem keepsChunks_lift (x : Parsed α) : KeepsChunks (Io.lift x) := by
  intro s hs
  cases x <;> exact hs

theorem keepsChunks_fail (e : TmuxError) : KeepsChunks (Io.fail e : Io α) := fun _ hs => hs

/-- an operation that takes events away at most -/
theorem keepsChunks_of_subset {x : Io α} (h : ∀ s, ∀ e ∈ (x s).2.events, e ∈ s.events) : KeepsChunks x :=
  fun s hs e he => hs e (h s e he)

theorem keepsChunks_nextLine (deadline : Bool) : KeepsChunks (nextLine deadline) := by
  refine keepsChunks_of_subset fun s e he => ?_
  have hcases : ∀ ms s, (nextLineFrom deadline ms s).2.events = s.events := by
    intro ms
    induction ms with
    | nil => intro s; rfl
    | cons m ms ih =>
      intro s
      cases m with
      | late =>
        simp only [nextLineFrom]
        split_ifs
        · rfl
        · exact ih s
      | broken e => rfl
      | rest =>
        simp only [nextLineFrom, deliver]
        split
        · exact ih s
        · split_ifs <;> rfl
      | note n =>
        simp only [nextLineFrom, deliver]
        split_ifs
        · rfl
        · rfl
        · exact ih s
      | answer a =>
        simp only [nextLineFrom, deliver]
        split
        · split_ifs <;> rfl
        · exact ih s
  have hsame : (nextLine deadline s).2.events = s.events := hcases s.script s
  rwa [hsame] at he

theorem keepsChunks_sendCommand (cs : List Command) : KeepsChunks (sendCommand cs) := by
  refine keepsChunks_of_subset fun s e he => ?_
  unfold sendCommand at he
  dsimp only at he
  split at he
  · exact he
  · split_ifs at he <;> exact he

theorem keepsChunks_queueEvent {e : ControlEvent} (h : e.Chunk) : KeepsChunks (queueEvent e) := by
  intro s hs
  unfold queueEvent
  split_ifs
  · exact hs
  · intro e' he'
    rcases List.mem_append.1 he' with he' | he'
    · exact hs e' he'
    · rw [List.mem_singleton.1 he']
      exact h

theorem keepsChunks_chargeOutput (n : ℕ) : KeepsChunks (chargeOutput n) := by
  refine keepsChunks_of_subset fun s e he => ?_
  unfold chargeOutput at he
  dsimp only at he
  split_ifs at he <;> exact he

theorem keepsChunks_queueChunks {p : Text} (hp : isPaneId p = true) {cs : List Bytes}
    (hc : ∀ c ∈ cs, c.length ≤ attachmentMaxTerminalChunkBytes) : KeepsChunks (queueChunks p cs) := by
  induction cs with
  | nil => exact keepsChunks_pure ()
  | cons c cs ih =>
    exact (keepsChunks_chargeOutput _).bind fun _ =>
      (keepsChunks_queueEvent (e := .output p c) ⟨hp, hc c List.mem_cons_self⟩).bind fun _ => ih fun d hd => hc d (List.mem_cons_of_mem _ hd)

theorem keepsChunks_ingest (line : Bytes) : KeepsChunks (ingestNotification line) := by
  refine KeepsChunks.bind (keepsChunks_of_subset fun s e he => he) fun _ => ?_
  intro s hs
  cases hn : parseNotification line with
  | error e => exact hs
  | ok n =>
    show Chunked (queueNotice n s).2
    cases n with
    | output p d =>
      exact keepsChunks_queueChunks (parseNotification_pane hn) (fun c hc => (chunks_length hc).2) s hs
    | refresh => exact keepsChunks_queueEvent (e := .refresh) trivial s hs
    | exit => exact keepsChunks_queueEvent (e := .exit) trivial s hs
    | nothing => exact hs

theorem keepsChunks_observeLine (max : ℕ) (r : Reading) (line : Bytes) : KeepsChunks (observeLine max r line) := by
  unfold observeLine
  split
  · refine (keepsChunks_lift _).bind fun m => ?_
    cases m with
    | some m => exact keepsChunks_pure _
    | none => exact (keepsChunks_ingest line).bind fun _ => keepsChunks_pure _
  · refine (keepsChunks_lift _).bind fun m => ?_
    cases m with
    | some e => dsimp only; split_ifs <;> first | exact keepsChunks_pure _ | exact keepsChunks_fail _
    | none =>
      refine (keepsChunks_lift _).bind fun m => ?_
      cases m with
      | some e => dsimp only; split_ifs <;> exact keepsChunks_fail _
      | none => dsimp only; split_ifs <;> first | exact keepsChunks_pure _ | exact keepsChunks_fail _

theorem keepsChunks_readResponseFrom (max fuel : ℕ) (r : Reading) : KeepsChunks (readResponseFrom max fuel r) := by
  induction fuel generalizing r with
  | zero => exact keepsChunks_fail _
  | succ fuel ih =>
    refine (keepsChunks_nextLine true).bind fun line => (keepsChunks_lift _).bind fun budget =>
      (keepsChunks_observeLine max _ line).bind fun x => ?_
    cases x with
    | inl r => exact ih r
    | inr rows => exact keepsChunks_pure _

theorem keepsChunks_readResponse (c : Command) (max : ℕ) : KeepsChunks (readResponse c max) := fun s hs =>
  keepsChunks_readResponseFrom max _ _ s hs

theorem keepsChunks_command (c : Command) (max : ℕ) : KeepsChunks (command c max) :=
  (keepsChunks_sendCommand [c]).bind fun _ => keepsChunks_readResponse c max

theorem keepsChunks_mutatingCommand (c : Command) : KeepsChunks (mutatingCommand c) := by
  intro s hs
  have hsend := keepsChunks_sendCommand [c] s hs
  unfold mutatingCommand
  split
  · rename_i u s₁ heq
    rw [heq] at hsend
    have hread := keepsChunks_readResponse c maxResponseBytes s₁ hsend
    split <;> rename_i heq' <;> rw [heq'] at hread <;> exact hread
  · rename_i heq
    rw [heq] at hsend
    exact hsend
  · rename_i heq
    rw [heq] at hsend
    exact hsend

/-! ## Hydration -/

theorem keepsChunks_observeWindows (session : Text) : KeepsChunks (observeWindows session) :=
  (keepsChunks_lift _).bind fun _ => (keepsChunks_command _ _).bind fun _ => keepsChunks_lift _

theorem keepsChunks_observeWindow (session : Text) (created : ℤ) : KeepsChunks (observeWindow session created) :=
  (keepsChunks_lift _).bind fun _ => (keepsChunks_command _ _).bind fun _ => (keepsChunks_lift _).bind fun _ =>
    (keepsChunks_command _ _).bind fun _ => (keepsChunks_lift _).bind fun _ => keepsChunks_pure _

theorem keepsChunks_observePanes (window : WindowProjection) : KeepsChunks (observePanes window) :=
  (keepsChunks_command _ _).bind fun _ => keepsChunks_lift _

theorem keepsChunks_observePaneLabels (panes : List PaneProjection) : KeepsChunks (observePaneLabels panes) := by
  induction panes with
  | nil => exact keepsChunks_pure _
  | cons pane panes ih =>
    exact (keepsChunks_command _ _).bind fun _ => (keepsChunks_lift _).bind fun _ => (keepsChunks_command _ _).bind fun _ =>
      (keepsChunks_lift _).bind fun _ => ih.bind fun _ => keepsChunks_pure _

theorem keepsChunks_forPanes (c : Text → Command) (panes : List PaneProjection) : KeepsChunks (forPanes c panes) := by
  induction panes with
  | nil => exact keepsChunks_pure _
  | cons pane panes ih => exact (keepsChunks_command _ _).bind fun _ => ih

theorem keepsChunks_captureBarrier (p : Text) : KeepsChunks (captureBarrier p) := by
  refine (keepsChunks_sendCommand _).bind fun _ => (keepsChunks_readResponse _ _).bind fun _ =>
    KeepsChunks.bind (fun _ hs => hs) fun n => (keepsChunks_readResponse _ _).bind fun _ =>
      KeepsChunks.bind ?_ fun _ => (keepsChunks_lift _).bind fun _ => keepsChunks_pure _
  refine keepsChunks_of_subset fun s e he => ?_
  unfold refuseOutputSince at he
  split_ifs at he <;> exact he

theorem keepsChunks_capturePane (window : WindowProjection) (pane : PaneProjection) (total : ℕ) :
    KeepsChunks (capturePane window pane total) :=
  (keepsChunks_captureBarrier _).bind fun _ => (keepsChunks_lift _).bind fun _ => (keepsChunks_lift _).bind fun _ =>
    (keepsChunks_lift _).bind fun _ => (keepsChunks_lift _).bind fun _ =>
      KeepsChunks.bind (keepsChunks_of_subset fun _ _ he => (List.mem_filter.1 he).1) fun _ => keepsChunks_pure _

theorem keepsChunks_capturePanes (window : WindowProjection) (panes : List PaneProjection) (total : ℕ) :
    KeepsChunks (capturePanes window panes total) := by
  induction panes generalizing total with
  | nil => exact keepsChunks_pure _
  | cons pane panes ih => exact (keepsChunks_capturePane _ _ _).bind fun _ => (ih _).bind fun _ => keepsChunks_pure _

theorem keepsChunks_revalidate (session : Text) (created : ℤ) (window : WindowProjection) (panes : List PaneProjection) :
    KeepsChunks (revalidateProjection session created window panes) :=
  (keepsChunks_observeWindows _).bind fun _ => (keepsChunks_observeWindow _ _).bind fun _ => (keepsChunks_lift _).bind fun _ =>
    (keepsChunks_observePanes _).bind fun _ => keepsChunks_lift _

theorem keepsChunks_stable : KeepsChunks requireStableCutover := by
  refine keepsChunks_of_subset fun s e he => ?_
  have hpop : ∀ es changed (s : St), (∀ e ∈ es, e ∈ s.events) → ∀ e ∈ (stableFrom changed es s).2.events, e ∈ s.events := by
    intro es
    induction es with
    | nil =>
      intro changed s _ e he
      unfold stableFrom at he
      split_ifs at he <;> exact he
    | cons x es ih =>
      intro changed s hs e he
      have hes : ∀ e ∈ es, e ∈ s.events := fun e he => hs e (List.mem_cons_of_mem _ he)
      cases x with
      | output p d => exact hes e (ih changed (s.popped (.output p d) es) (fun _ h => h) e he)
      | refresh => exact hes e (ih true (s.popped .refresh es) (fun _ h => h) e he)
      | exit => exact hes e he
  exact hpop s.events false s (fun _ h => h) e he

theorem keepsChunks_live : KeepsChunks requireLiveCutover := by
  refine keepsChunks_of_subset fun s e he => ?_
  unfold requireLiveCutover at he
  split_ifs at he <;> exact he

theorem keepsChunks_hydrateOnce (session : Text) (created : ℤ) : KeepsChunks (hydrateOnce session created) :=
  (keepsChunks_observeWindows _).bind fun _ => (keepsChunks_observeWindow _ _).bind fun _ => (keepsChunks_lift _).bind fun _ =>
    (keepsChunks_observePanes _).bind fun _ => (keepsChunks_observePaneLabels _).bind fun _ =>
      (keepsChunks_forPanes _ _).bind fun _ => keepsChunks_stable.bind fun _ => (keepsChunks_forPanes _ _).bind fun _ =>
        (keepsChunks_capturePanes _ _ _).bind fun _ => (keepsChunks_revalidate _ _ _ _).bind fun _ =>
          keepsChunks_live.bind fun _ => keepsChunks_pure _

theorem keepsChunks_clearEvents : KeepsChunks clearEvents := fun _ _ _ he => absurd he List.not_mem_nil

theorem keepsChunks_hydrate (session : Text) (created : ℤ) : KeepsChunks (hydrate session created) := by
  have hfrom : ∀ attempts, KeepsChunks (hydrateFrom session created attempts) := by
    intro attempts
    induction attempts with
    | zero => exact keepsChunks_fail _
    | succ attempts ih =>
      intro s hs
      have hbegin : KeepsChunks beginAttempt := keepsChunks_clearEvents.bind fun _ => keepsChunks_of_subset fun _ _ he => he
      have h := hbegin.bind (fun _ => keepsChunks_hydrateOnce session created) s hs
      unfold hydrateFrom
      split
      · rename_i heq
        rw [heq] at h
        exact ih _ h
      · exact h
  exact hfrom _

/-! ## The workspace -/

theorem keepsChunks_pumpEvent : KeepsChunks pumpEvent :=
  (keepsChunks_nextLine false).bind fun line => keepsChunks_ingest line

theorem keepsChunks_pump (n : ℕ) : KeepsChunks (pump n) := by
  induction n with
  | zero => exact keepsChunks_pure ()
  | succ n ih => exact keepsChunks_pumpEvent.bind fun _ => ih

/-- the events of the queue leave it in order, so what leaves it is a chunk as well -/
theorem nextEventFrom_chunk (fuel : ℕ) (hs : Chunked s) :
    Chunked (nextEventFrom fuel s).2 ∧ ∀ e, (nextEventFrom fuel s).1 = .ok e → e.Chunk := by
  induction fuel generalizing s with
  | zero => exact ⟨hs, by intro e h; cases h⟩
  | succ fuel ih =>
    unfold nextEventFrom
    split
    · rename_i e es hes
      refine ⟨fun e' he' => hs e' (by rw [hes]; exact List.mem_cons_of_mem _ he'), fun e' he' => ?_⟩
      cases he'
      exact hs e (by rw [hes]; exact List.mem_cons_self)
    · have h := keepsChunks_pumpEvent s hs
      rw [bind_apply]
      revert h
      rcases pumpEvent s with ⟨r, s₁⟩
      intro h
      cases r with
      | ok u => exact ih h
      | error e => exact ⟨h, by intro e h; cases h⟩
      | waiting => exact ⟨h, by intro e h; cases h⟩

theorem keepsChunks_nextEvent : KeepsChunks nextEvent := fun _ hs => (nextEventFrom_chunk _ hs).1

/-- **What `next_event` returns.** -/
theorem nextEvent_chunk {e : ControlEvent} (hs : Chunked s) (h : nextEvent s = (.ok e, s')) : e.Chunk :=
  (nextEventFrom_chunk _ hs).2 e (congrArg Prod.fst h)

theorem keepsChunks_setWriter (writer : Bool) : KeepsChunks (setWriter writer) := by
  refine (keepsChunks_mutatingCommand _).bind fun outcome => ?_
  split
  · exact keepsChunks_pure _
  · exact keepsChunks_mutatingCommand _

theorem keepsChunks_resize (columns rows : ℕ) : KeepsChunks (resize columns rows) :=
  (keepsChunks_lift _).bind fun _ => keepsChunks_mutatingCommand _

theorem keepsChunks_install (session : Text) (created : ℤ) (pumps : ℕ) : KeepsChunks (install session created pumps) := by
  intro s hs
  have h := keepsChunks_hydrate session created s hs
  unfold install
  split
  · rename_i heq
    rw [heq] at h
    exact ((keepsChunks_pump pumps).bind fun _ => keepsChunks_pure _) _ h
  · rename_i heq
    rw [heq] at h
    split_ifs <;> exact h
  · rename_i heq
    rw [heq] at h
    exact h

theorem keepsChunks_mutateAndRefresh {m : Io MutationOutcome} (hm : KeepsChunks m) (session : Text) (created : ℤ) (pumps : ℕ) :
    KeepsChunks (mutateAndRefresh m session created pumps) := by
  refine hm.bind fun outcome => ?_
  cases outcome with
  | succeeded => exact keepsChunks_install _ _ _
  | failed => exact keepsChunks_pure _
  | ambiguous => exact keepsChunks_pure _

/-- what follows a mutation that must succeed -/
theorem keepsChunks_afterSuccess {m : Io MutationOutcome} (hm : KeepsChunks m) {x : Io Bool} (hx : KeepsChunks x) :
    KeepsChunks (m >>= fun outcome => if outcome ≠ .succeeded then pure false else x) := by
  refine hm.bind fun outcome => ?_
  split_ifs
  · exact keepsChunks_pure _
  · exact hx

/-- **One request.** -/
theorem keepsChunks_serve (session : Text) (created : ℤ) (r : Request) : KeepsChunks (serve session created r) := by
  cases r with
  | demote => exact (keepsChunks_setWriter false).bind fun _ => keepsChunks_pure _
  | event => exact keepsChunks_nextEvent.bind fun _ => keepsChunks_pure _
  | listen pumps => exact (keepsChunks_pump pumps).bind fun _ => keepsChunks_pure _
  | refresh pumps => exact keepsChunks_install _ _ _
  | input p d => exact ((keepsChunks_lift _).bind fun _ => keepsChunks_mutatingCommand _).bind fun _ => keepsChunks_pure _
  | resize size pumps => exact keepsChunks_mutateAndRefresh (keepsChunks_resize _ _) _ _ _
  | selectWindow id pumps =>
    exact keepsChunks_mutateAndRefresh ((keepsChunks_lift _).bind fun _ => keepsChunks_mutatingCommand _) _ _ _
  | selectPane id pumps =>
    exact keepsChunks_mutateAndRefresh ((keepsChunks_lift _).bind fun _ => keepsChunks_mutatingCommand _) _ _ _
  | claim current size pumps =>
    have hrest := keepsChunks_afterSuccess (keepsChunks_resize size.columns size.rows) (keepsChunks_install session created pumps)
    cases current with
    | true => exact keepsChunks_afterSuccess (keepsChunks_pure _) hrest
    | false => exact keepsChunks_afterSuccess (keepsChunks_setWriter true) hrest

theorem keepsChunks_serveAll (session : Text) (created : ℤ) (rs : List Request) :
    KeepsChunks (serveAll session created rs) := by
  induction rs with
  | nil => exact keepsChunks_pure ()
  | cons r rs ih =>
    refine (keepsChunks_serve session created r).bind fun goes => ?_
    split_ifs
    · exact ih
    · exact keepsChunks_pure ()

theorem keepsChunks_enter (session : Text) (created : ℤ) (writer : Option (Option ClientSize)) (pumps : ℕ) :
    KeepsChunks (enter session created writer pumps) := by
  cases writer with
  | none => exact keepsChunks_install _ _ _
  | some size =>
    have hinstall := keepsChunks_install session created pumps
    cases size with
    | none => exact keepsChunks_afterSuccess (keepsChunks_setWriter true) (keepsChunks_afterSuccess (keepsChunks_pure _) hinstall)
    | some size =>
      exact keepsChunks_afterSuccess (keepsChunks_setWriter true) (keepsChunks_afterSuccess (keepsChunks_resize _ _) hinstall)

/-- **The queue of an adapter**, in every state a workspace reaches, holds chunks. -/
theorem workspace_chunked (session : Text) (created : ℤ) (writer : Option (Option ClientSize)) (pumps : ℕ)
    (rs : List Request) (script : List Move) : Chunked (workspace session created writer pumps rs (St.init script)).2 := by
  have hstart : KeepsChunks startAdapter := (keepsChunks_readResponse _ _).bind fun _ => (keepsChunks_command _ _).bind fun _ =>
    (keepsChunks_command _ _).bind fun _ => keepsChunks_clearEvents
  have hall : KeepsChunks (workspace session created writer pumps rs) := by
    refine hstart.bind fun _ => (keepsChunks_enter session created writer pumps).bind fun goes => ?_
    split_ifs
    · exact keepsChunks_serveAll session created rs
    · exact keepsChunks_pure ()
  exact hall _ fun e he => absurd he List.not_mem_nil

end OwlMux.Tmux
