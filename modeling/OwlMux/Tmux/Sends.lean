/-
What the adapter sends, over whole runs of a workspace. `Sends` says of an operation that every line it leaves unanswered is one
the adapter may send; a run that stops behind a send leaves that line unanswered, so over all scripts every line ever sent is
covered. Ids reach a command from a request, where they are checked, or from the rows of an earlier answer, which were checked
when they were parsed.

Result: `control_commands_closed`.
-/
import Mathlib.Tactic
import OwlMux.Tmux.CommandLine
import OwlMux.Tmux.Alignment

namespace OwlMux.Tmux

open OwlMux.Relay (Text)

variable {α β : Type}

/-! ## The invariant -/

/-- a line that is on its way: of the adapter's, or the attach block -/
def OnItsWay (cs : List Command) : Prop := cs = [.attach] ∨ AdapterLine cs

def Outstanding (s : St) : Prop := ∀ cs ∈ s.pending, OnItsWay cs

/-- only such lines are sent, and what is returned satisfies `g` -/
def Sends (g : α → Prop) (x : Io α) : Prop := ∀ s, Outstanding s → Outstanding (x s).2 ∧ ∀ a, (x s).1 = .ok a → g a

theorem Sends.bind {g : α → Prop} {h : β → Prop} {x : Io α} {f : α → Io β} (hx : Sends g x) (hf : ∀ a, g a → Sends h (f a)) :
    Sends h (x >>= f) := by
  intro s hs
  obtain ⟨h1, h2⟩ := hx s hs
  rw [bind_apply]
  rcases hxs : x s with ⟨o, t⟩
  rw [hxs] at h1 h2
  cases o with
  | ok a => exact hf a (h2 a rfl) t h1
  | error e => exact ⟨h1, by simp⟩
  | waiting => exact ⟨h1, by simp⟩

theorem Sends.seq {h : β → Prop} {x : Io α} {f : α → Io β} (hx : Sends always x) (hf : ∀ a, Sends h (f a)) :
    Sends h (x >>= f) := hx.bind fun a _ => hf a

theorem sends_pure {g : α → Prop} {a : α} (h : g a) : Sends g (Io.pure a) := by
  intro s hs
  refine ⟨hs, ?_⟩
  rintro b ⟨⟩
  exact h

theorem sends_lift {g : α → Prop} {x : Parsed α} (h : ∀ a, x = .ok a → g a) : Sends g (Io.lift x) := by
  cases x with
  | ok a => exact sends_pure (h a rfl)
  | error e =>
    intro s hs
    exact ⟨hs, by simp [Io.lift, Io.fail]⟩

theorem sends_require {b : Bool} {e : TmuxError} : Sends (fun _ => b = true) (Io.lift (require b e)) :=
  sends_lift fun _ h => require_ok.1 h

/-- an operation that leaves the lines alone -/
theorem sends_local {x : Io α} (h : ∀ s, (x s).2.pending = s.pending) : Sends always x := by
  intro s hs
  refine ⟨?_, fun _ _ => trivial⟩
  unfold Outstanding
  rw [h s]
  exact hs

/-! ## Reading and writing -/

theorem AdapterLine.tail {c d : Command} {cs : List Command} (h : AdapterLine (c :: d :: cs)) : AdapterLine (d :: cs) := by
  cases h with
  | barrier h => exact .one (c := .displayPane _) h

theorem outstanding_answered {s : St} {c : Command} {cs : List Command} {lines : List (List Command)} (hs : Outstanding s)
    (h : s.pending = (c :: cs) :: lines) (ok : Bool) :
    ∀ l ∈ (if ok && !cs.isEmpty then cs :: lines else lines), OnItsWay l := by
  have hhead := hs (c :: cs) (by rw [h]; exact List.mem_cons_self)
  have htail : ∀ l ∈ lines, OnItsWay l := fun l hl => hs l (by rw [h]; exact List.mem_cons_of_mem _ hl)
  split_ifs with hif
  · intro l hl
    rcases List.mem_cons.1 hl with rfl | hl
    · cases l with
      | nil => simp at hif
      | cons d cs =>
        rcases hhead with heq | hline
        · cases heq
        · exact .inr hline.tail
    · exact htail l hl
  · exact htail

theorem deliver_pending (line : Bytes) (entry : List Entry) (s : St) : (deliver line entry s).2.pending = s.pending := by
  unfold deliver
  split_ifs <;> rfl

theorem outstanding_nextLineFrom (deadline : Bool) (ms : List Move) {s : St} (hs : Outstanding s) :
    Outstanding (nextLineFrom deadline ms s).2 := by
  induction ms with
  | nil => exact hs
  | cons m ms ih =>
    cases m with
    | late =>
      unfold nextLineFrom
      split_ifs
      · exact hs
      · exact ih
    | broken e => exact hs
    | rest =>
      unfold nextLineFrom
      split
      · exact ih
      · unfold Outstanding
        rw [deliver_pending]
        exact hs
    | note n =>
      unfold nextLineFrom
      split_ifs
      · unfold Outstanding
        rw [deliver_pending]
        exact hs
      · exact ih
    | answer a =>
      unfold nextLineFrom
      split
      · rename_i c cs lines hw hp
        unfold Outstanding
        rw [deliver_pending]
        exact outstanding_answered hs hp a.ok
      · exact ih

theorem sends_nextLine (deadline : Bool) : Sends always (nextLine deadline) := fun s hs =>
  ⟨outstanding_nextLineFrom deadline s.script hs, fun _ _ => trivial⟩

theorem sends_sendCommand {cs : List Command} (h : AdapterLine cs) : Sends always (sendCommand cs) := by
  intro s hs
  refine ⟨?_, fun _ _ => trivial⟩
  unfold sendCommand
  dsimp only
  split
  · exact hs
  · split_ifs
    · exact hs
    · intro l hl
      rcases List.mem_append.1 hl with hl | hl
      · exact hs l hl
      · rw [List.mem_singleton.1 hl]
        exact .inr h

theorem quiet_pending {x : Io α} (h : Quiet x) (s : St) : (x s).2.pending = s.pending := by
  obtain ⟨es, n, heq⟩ := (h s).2
  rw [heq]

theorem sends_ingest (line : Bytes) : Sends always (ingestNotification line) := by
  unfold ingestNotification
  refine (sends_local fun s => rfl).seq fun _ => ?_
  refine Sends.seq (sends_lift fun _ _ => trivial) fun n => ?_
  exact sends_local (quiet_pending (quiet_queueNotice n))

theorem sends_observeLine (max : ℕ) (r : Reading) (line : Bytes) : Sends always (observeLine max r line) := by
  have hfail : ∀ {γ : Type} (e : TmuxError), Sends (always : γ → Prop) (Io.fail e) := fun e => sends_local fun s => rfl
  unfold observeLine
  split
  · refine Sends.seq (sends_lift fun _ _ => trivial) fun m => ?_
    split
    · exact sends_pure trivial
    · exact (sends_ingest line).seq fun _ => sends_pure trivial
  · refine Sends.seq (sends_lift fun _ _ => trivial) fun m => ?_
    split
    · split_ifs
      · exact sends_pure trivial
      · exact hfail _
    · refine Sends.seq (sends_lift fun _ _ => trivial) fun m => ?_
      split
      · split_ifs <;> exact hfail _
      · dsimp only
        split_ifs
        · exact hfail _
        · exact hfail _
        · exact sends_pure trivial

theorem sends_readResponseFrom (max fuel : ℕ) (r : Reading) : Sends always (readResponseFrom max fuel r) := by
  induction fuel generalizing r with
  | zero => exact sends_local fun s => rfl
  | succ fuel ih =>
    unfold readResponseFrom
    refine (sends_nextLine true).seq fun line => ?_
    refine Sends.seq (sends_lift fun _ _ => trivial) fun budget => ?_
    refine (sends_observeLine _ _ _).seq fun next => ?_
    cases next with
    | inl r => exact ih r
    | inr rows => exact sends_pure trivial

theorem sends_readResponse (c : Command) (max : ℕ) : Sends always (readResponse c max) := by
  intro s hs
  exact ⟨(sends_readResponseFrom max (maxResponseRecords + 1) .init s hs).1, fun _ _ => trivial⟩

theorem sends_command {c : Command} (h : c.Ok) (max : ℕ) : Sends always (command c max) :=
  (sends_sendCommand (.one h)).seq fun _ => sends_readResponse c max

theorem sends_mutatingCommand {c : Command} (h : c.Ok) : Sends always (mutatingCommand c) := by
  intro s hs
  have hsend := (sends_sendCommand (.one h) s hs).1
  refine ⟨?_, fun _ _ => trivial⟩
  unfold mutatingCommand
  split
  · rename_i t heq
    rw [heq] at hsend
    have hread := (sends_readResponse c maxResponseBytes t hsend).1
    split
    all_goals
      rename_i u hr
      rw [hr] at hread
      exact hread
  · rename_i t heq
    rw [heq] at hsend
    exact hsend
  · rename_i t heq
    rw [heq] at hsend
    exact hsend

/-! ## Hydration -/

theorem sends_observeWindows (session : Text) : Sends always (observeWindows session) := by
  refine sends_require.bind fun _ hid => ?_
  exact (sends_command (c := .listWindows session) hid _).seq fun _ => sends_lift fun _ _ => trivial

/-- the window an answer names has an admitted id -/
theorem sends_observeWindow (session : Text) (created : ℤ) :
    Sends (fun w => isWindowId w.windowId = true) (observeWindow session created) := by
  refine sends_require.bind fun _ hid => ?_
  rw [Bool.and_eq_true] at hid
  refine (sends_command (c := .displayWindow session) hid.1 _).seq fun response => ?_
  refine Sends.bind (g := fun w => isWindowId w.windowId = true) (sends_lift fun w hw => (parseWindow_ok hw).1) fun w hw => ?_
  refine (sends_command (c := .displayWindowName w.windowId) hw _).seq fun name => ?_
  refine Sends.seq (sends_lift fun _ _ => trivial) fun name => ?_
  exact sends_pure hw

def IdsOk (panes : List PaneProjection) : Prop := ∀ p ∈ panes, isPaneId p.paneId = true

theorem sends_observePanes {window : WindowProjection} (h : isWindowId window.windowId = true) :
    Sends IdsOk (observePanes window) := by
  refine (sends_command (c := .listPanes window.windowId) h _).seq fun rows => ?_
  refine sends_lift fun panes hpanes => ?_
  intro p hp
  exact ((parsePaneRows_spec hpanes).each p hp).id

theorem sends_observePaneLabels {panes : List PaneProjection} (h : IdsOk panes) : Sends IdsOk (observePaneLabels panes) := by
  induction panes with
  | nil => exact sends_pure h
  | cons pane panes ih =>
    have hp := h pane List.mem_cons_self
    refine (sends_command (c := .displayTitle pane.paneId) hp _).seq fun title => ?_
    refine Sends.seq (sends_lift fun _ _ => trivial) fun title => ?_
    refine (sends_command (c := .displayCommand pane.paneId) hp _).seq fun current => ?_
    refine Sends.seq (sends_lift fun _ _ => trivial) fun current => ?_
    refine (ih fun q hq => h q (List.mem_cons_of_mem pane hq)).bind fun rest hrest => ?_
    refine sends_pure ?_
    intro q hq
    rcases List.mem_cons.1 hq with rfl | hq
    · exact hp
    · exact hrest q hq

theorem sends_forPanes {c : Text → Command} (hc : ∀ p, isPaneId p = true → (c p).Ok) {panes : List PaneProjection}
    (h : IdsOk panes) : Sends always (forPanes c panes) := by
  induction panes with
  | nil => exact sends_pure trivial
  | cons pane panes ih =>
    refine (sends_command (hc _ (h pane List.mem_cons_self)) _).seq fun _ => ?_
    exact ih fun q hq => h q (List.mem_cons_of_mem pane hq)

theorem sends_captureBarrier {p : Text} (h : isPaneId p = true) : Sends always (captureBarrier p) := by
  refine (sends_sendCommand (.barrier h)).seq fun _ => ?_
  refine (sends_readResponse _ _).seq fun lines => ?_
  refine Sends.seq (sends_local fun s => rfl) fun boundary => ?_
  refine (sends_readResponse _ _).seq fun metadata => ?_
  refine Sends.seq (sends_local fun s => ?_) fun _ => ?_
  · unfold refuseOutputSince
    split_ifs <;> rfl
  · exact Sends.seq (sends_lift fun _ _ => trivial) fun _ => sends_pure trivial

theorem sends_capturePane (window : WindowProjection) {pane : PaneProjection} (h : isPaneId pane.paneId = true) (total : ℕ) :
    Sends always (capturePane window pane total) := by
  refine (sends_captureBarrier h).seq fun captured => ?_
  refine Sends.seq (sends_lift fun _ _ => trivial) fun final => ?_
  refine Sends.seq (sends_lift fun _ _ => trivial) fun _ => ?_
  refine Sends.seq (sends_lift fun _ _ => trivial) fun content => ?_
  refine Sends.seq (sends_lift fun _ _ => trivial) fun _ => ?_
  exact Sends.seq (sends_local fun s => rfl) fun _ => sends_pure trivial

theorem sends_capturePanes (window : WindowProjection) {panes : List PaneProjection} (h : IdsOk panes) (total : ℕ) :
    Sends always (capturePanes window panes total) := by
  induction panes generalizing total with
  | nil => exact sends_pure trivial
  | cons pane panes ih =>
    refine (sends_capturePane window (h pane List.mem_cons_self) total).seq fun captured => ?_
    refine (ih (fun q hq => h q (List.mem_cons_of_mem pane hq)) _).seq fun rest => ?_
    exact sends_pure trivial

theorem sends_revalidate (session : Text) (created : ℤ) (window : WindowProjection) (panes : List PaneProjection) :
    Sends always (revalidateProjection session created window panes) := by
  refine (sends_observeWindows session).seq fun windows => ?_
  refine (sends_observeWindow session created).bind fun w hw => ?_
  refine Sends.seq (sends_lift fun _ _ => trivial) fun _ => ?_
  refine (sends_observePanes hw).bind fun observed _ => ?_
  exact sends_lift fun _ _ => trivial

theorem stableFrom_pending (changed : Bool) (es : List ControlEvent) (s : St) : (stableFrom changed es s).2.pending = s.pending := by
  induction es generalizing changed s with
  | nil =>
    unfold stableFrom
    split_ifs <;> rfl
  | cons e es ih =>
    unfold stableFrom
    cases e with
    | output p d => exact ih changed _
    | refresh => exact ih true _
    | exit => rfl

theorem sends_hydrateOnce (session : Text) (created : ℤ) : Sends always (hydrateOnce session created) := by
  refine (sends_observeWindows session).seq fun windows => ?_
  refine (sends_observeWindow session created).bind fun window hw => ?_
  refine Sends.seq (sends_lift fun _ _ => trivial) fun _ => ?_
  refine (sends_observePanes hw).bind fun panes hpanes => ?_
  refine (sends_observePaneLabels hpanes).bind fun panes hpanes => ?_
  refine (sends_forPanes (c := .pause) (fun p hp => hp) hpanes).seq fun _ => ?_
  refine Sends.seq (sends_local fun s => stableFrom_pending false s.events s) fun _ => ?_
  refine (sends_forPanes (c := .resume) (fun p hp => hp) hpanes).seq fun _ => ?_
  refine (sends_capturePanes window hpanes 0).seq fun captured => ?_
  refine (sends_revalidate session created window _).seq fun _ => ?_
  refine Sends.seq (sends_local fun s => ?_) fun _ => sends_pure trivial
  unfold requireLiveCutover
  split_ifs <;> rfl

theorem sends_hydrateFrom (session : Text) (created : ℤ) (attempts : ℕ) : Sends always (hydrateFrom session created attempts) := by
  induction attempts with
  | zero => exact sends_local fun s => rfl
  | succ attempts ih =>
    have honce : Sends always (beginAttempt >>= fun _ => hydrateOnce session created) :=
      Sends.seq (Sends.seq (sends_local fun s => rfl) fun _ => sends_local fun s => rfl) fun _ => sends_hydrateOnce session created
    intro s hs
    refine ⟨?_, fun _ _ => trivial⟩
    have h1 := (honce s hs).1
    unfold hydrateFrom
    split
    · rename_i t heq
      rw [heq] at h1
      exact (ih t h1).1
    · exact h1

theorem sends_hydrate (session : Text) (created : ℤ) : Sends always (hydrate session created) := sends_hydrateFrom _ _ _

/-! ## The workspace -/

theorem sends_pumpEvent : Sends always pumpEvent := (sends_nextLine false).seq sends_ingest

theorem sends_pump (n : ℕ) : Sends always (pump n) := by
  induction n with
  | zero => exact sends_pure trivial
  | succ n ih => exact sends_pumpEvent.seq fun _ => ih

theorem sends_nextEventFrom (fuel : ℕ) : Sends always (nextEventFrom fuel) := by
  induction fuel with
  | zero => exact sends_local fun s => rfl
  | succ fuel ih =>
    intro s hs
    refine ⟨?_, fun _ _ => trivial⟩
    unfold nextEventFrom
    split
    · exact hs
    · exact ((sends_pumpEvent.seq fun _ => ih) s hs).1

theorem sends_setWriter (writer : Bool) : Sends always (setWriter writer) := by
  have hfirst : Command.Ok (if writer then .switchClient else .sizeFlags true) := by cases writer <;> trivial
  have hsecond : Command.Ok (if writer then .sizeFlags false else .switchClient) := by cases writer <;> trivial
  refine (sends_mutatingCommand hfirst).seq fun outcome => ?_
  by_cases h : outcome ≠ .succeeded
  · rw [if_pos h]
    exact sends_pure trivial
  · rw [if_neg h]
    exact sends_mutatingCommand hsecond

theorem sends_resize (columns rows : ℕ) : Sends always (resize columns rows) :=
  sends_require.bind fun _ h => sends_mutatingCommand (c := .resize columns rows) h

theorem sends_sendLiteral (p : Text) (data : Bytes) : Sends always (sendLiteral p data) := by
  refine sends_require.bind fun _ h => sends_mutatingCommand (c := .sendKeys p data) ?_
  simp only [Bool.and_eq_true, Bool.not_eq_true', List.isEmpty_eq_false_iff, decide_eq_true_eq] at h
  exact ⟨h.1.1, h.1.2, h.2⟩

theorem sends_selectWindow (w : Text) : Sends always (selectWindow w) :=
  sends_require.bind fun _ h => sends_mutatingCommand (c := .selectWindow w) h

theorem sends_selectPane (p : Text) : Sends always (selectPane p) :=
  sends_require.bind fun _ h => sends_mutatingCommand (c := .selectPane p) h

theorem sends_install (session : Text) (created : ℤ) (pumps : ℕ) : Sends always (install session created pumps) := by
  intro s hs
  refine ⟨?_, fun _ _ => trivial⟩
  have h1 := (sends_hydrate session created s hs).1
  unfold install
  split
  · rename_i t heq
    rw [heq] at h1
    exact (((sends_pump pumps).seq fun _ => sends_pure (g := always) (a := true) trivial) t h1).1
  · rename_i t heq
    rw [heq] at h1
    split_ifs <;> exact h1
  · rename_i t heq
    rw [heq] at h1
    exact h1

theorem sends_mutateAndRefresh {m : Io MutationOutcome} (hm : Sends always m) (session : Text) (created : ℤ) (pumps : ℕ) :
    Sends always (mutateAndRefresh m session created pumps) := by
  refine hm.seq fun outcome => ?_
  cases outcome with
  | succeeded => exact sends_install session created pumps
  | failed => exact sends_pure trivial
  | ambiguous => exact sends_pure trivial

theorem sends_serve (session : Text) (created : ℤ) (r : Request) : Sends always (serve session created r) := by
  cases r with
  | demote => exact (sends_setWriter false).seq fun _ => sends_pure trivial
  | event => exact Sends.seq (fun s => sends_nextEventFrom _ s) fun _ => sends_pure trivial
  | listen pumps => exact (sends_pump pumps).seq fun _ => sends_pure trivial
  | refresh pumps => exact sends_install session created pumps
  | input p data => exact (sends_sendLiteral p data).seq fun _ => sends_pure trivial
  | resize size pumps => exact sends_mutateAndRefresh (sends_resize _ _) session created pumps
  | selectWindow w pumps => exact sends_mutateAndRefresh (sends_selectWindow w) session created pumps
  | selectPane p pumps => exact sends_mutateAndRefresh (sends_selectPane p) session created pumps
  | claim current size pumps =>
    have hrest : ∀ outcome : MutationOutcome, Sends always (do
        if outcome ≠ .succeeded then return false
        else
          let outcome ← Tmux.resize size.columns size.rows
          if outcome ≠ .succeeded then return false else install session created pumps) := by
      intro outcome
      split_ifs
      · exact sends_pure trivial
      · refine (sends_resize _ _).seq fun outcome => ?_
        split_ifs
        · exact sends_pure trivial
        · exact sends_install session created pumps
    cases current with
    | true => exact Sends.seq (sends_pure (a := MutationOutcome.succeeded) trivial) hrest
    | false => exact (sends_setWriter true).seq hrest

theorem sends_serveAll (session : Text) (created : ℤ) (rs : List Request) : Sends always (serveAll session created rs) := by
  induction rs with
  | nil => exact sends_pure trivial
  | cons r rs ih =>
    refine (sends_serve session created r).seq fun goesOn => ?_
    split_ifs
    · exact ih
    · exact sends_pure trivial

theorem sends_enter (session : Text) (created : ℤ) (writer : Option (Option ClientSize)) (pumps : ℕ) :
    Sends always (enter session created writer pumps) := by
  cases writer with
  | none => exact sends_install session created pumps
  | some size =>
    refine (sends_setWriter true).seq fun outcome => ?_
    split_ifs
    · exact sends_pure trivial
    · have hrest : ∀ outcome : MutationOutcome, Sends always (do
          if outcome ≠ .succeeded then return false else install session created pumps) := by
        intro outcome
        split_ifs
        · exact sends_pure trivial
        · exact sends_install session created pumps
      cases size with
      | none => exact Sends.seq (sends_pure (a := MutationOutcome.succeeded) trivial) hrest
      | some size => exact (sends_resize _ _).seq hrest

theorem sends_workspace (session : Text) (created : ℤ) (writer : Option (Option ClientSize)) (pumps : ℕ) (rs : List Request) :
    Sends always (workspace session created writer pumps rs) := by
  have hstart : Sends always startAdapter := by
    refine (sends_readResponse _ _).seq fun _ => ?_
    refine (sends_command (c := .observerFlags) trivial _).seq fun _ => ?_
    refine (sends_command (c := .subscribe) trivial _).seq fun _ => ?_
    exact sends_local fun s => rfl
  refine hstart.seq fun _ => ?_
  refine (sends_enter session created writer pumps).seq fun goesOn => ?_
  split_ifs
  · exact sends_serveAll session created rs
  · exact sends_pure trivial

/-! ## Closed commands -/

/-- a byte as `send-keys -H` reads it -/
def unhex (t : Text) : Option UInt8 :=
  match t with
  | [a, b] =>
    match ['0', '1', '2', '3', '4', '5', '6', '7', '8', '9', 'a', 'b', 'c', 'd', 'e', 'f'].idxOf? a,
      ['0', '1', '2', '3', '4', '5', '6', '7', '8', '9', 'a', 'b', 'c', 'd', 'e', 'f'].idxOf? b with
    | some x, some y => some (UInt8.ofNat (16 * x + y))
    | _, _ => none
  | _ => none

theorem unhex_hexByte (b : UInt8) : unhex (hexByte b) = some b := by
  have hdigit : ∀ n : Fin 16,
      ['0', '1', '2', '3', '4', '5', '6', '7', '8', '9', 'a', 'b', 'c', 'd', 'e', 'f'].idxOf? (Nat.digitChar n) = some n.val := by
    decide
  have hb := b.toNat_lt
  have hhigh := hdigit ⟨b.toNat / 16, by omega⟩
  have hlow := hdigit ⟨b.toNat % 16, by omega⟩
  have hsum : 16 * (b.toNat / 16) + b.toNat % 16 = b.toNat := by omega
  simp only [unhex, hexByte, hhigh, hlow, hsum, UInt8.ofNat_toNat]

theorem unhex_argv (p : Text) (data : Bytes) : ((Command.sendKeys p data).argv.drop 4).mapM unhex = some data := by
  have hdrop : (Command.sendKeys p data).argv.drop 4 = data.map hexByte := by
    rw [Command.argv, Command.spelling, List.map_append, List.map_map]
    rfl
  rw [hdrop]
  induction data with
  | nil => rfl
  | cons b data ih =>
    rw [List.map_cons, List.mapM_cons, unhex_hexByte, ih (by rw [Command.argv, Command.spelling, List.map_append, List.map_map]; rfl)]
    rfl

theorem sendCommand_accepts {cs : List Command} (h : AdapterLine cs) {s : St} (hs : ∀ e ms, s.script ≠ .broken e :: ms) :
    (sendCommand cs s).1 = .ok () := by
  obtain ⟨⟨hlen, hchars⟩, -⟩ := h.sendable
  have hany : ((renderLine cs).any fun c => c = '\r' || c = '\n' || c = Char.ofNat 0) = false := by
    rw [List.any_eq_false]
    intro c hc
    obtain ⟨h1, h2, h3⟩ := hchars c hc
    simp [h1, h2]
    exact h3
  unfold sendCommand
  dsimp only
  split
  · rename_i e ms heq
    exact (hs e ms heq).elim
  · rw [hany, decide_eq_false (by omega)]
    rfl

/-- what is refused, is refused before anything is sent -/
structure Refuses (s : St) : Prop where
  input : ∀ p data, ¬ (Command.sendKeys p data).Ok → sendLiteral p data s = (.error .protocol, s)
  window : ∀ w, ¬ (Command.selectWindow w).Ok → selectWindow w s = (.error .protocol, s)
  pane : ∀ p, ¬ (Command.selectPane p).Ok → selectPane p s = (.error .protocol, s)
  size : ∀ c r, ¬ (Command.resize c r).Ok → resize c r s = (.error .protocol, s)
  windows : ∀ session, isSessionId session ≠ true → observeWindows session s = (.error .protocol, s)
  active : ∀ session created, isSessionId session ≠ true → observeWindow session created s = (.error .protocol, s)

theorem require_refuses {b : Bool} (hb : b = false) (f : Unit → Io α) (s : St) :
    (Io.lift (require b .protocol) >>= f) s = (.error .protocol, s) := by
  subst hb
  rfl

theorem refuses (s : St) : Refuses s where
  input p data h := by
    refine require_refuses ?_ _ s
    rw [Bool.eq_false_iff]
    intro hb
    simp only [Bool.and_eq_true, Bool.not_eq_true', List.isEmpty_eq_false_iff, decide_eq_true_eq] at hb
    exact h ⟨hb.1.1, hb.1.2, hb.2⟩
  window w h := require_refuses (Bool.eq_false_iff.2 h) _ s
  pane p h := require_refuses (Bool.eq_false_iff.2 h) _ s
  size c r h := require_refuses (Bool.eq_false_iff.2 h) _ s
  windows session h := require_refuses (Bool.eq_false_iff.2 h) _ s
  active session created h := by
    refine require_refuses ?_ _ s
    rw [Bool.eq_false_iff.2 h]
    rfl

/-- **Closed commands.** Every line the adapter can send is a line `send_command` takes, and tmux reads the intended commands from
it; hex arguments are the input; what is outside the grammar is refused with nothing sent; and in every run of a workspace, on
whatever the target answers, only such lines are sent. -/
theorem control_commands_closed :
    (∀ cs, AdapterLine cs → Sendable (renderLine cs) ∧ commandsOf (renderLine cs) = some (cs.map Command.argv)) ∧
      (∀ cs s, AdapterLine cs → (∀ e ms, s.script ≠ .broken e :: ms) → (sendCommand cs s).1 = .ok ()) ∧
      (∀ p data, ((Command.sendKeys p data).argv.drop 4).mapM unhex = some data) ∧
      (∀ s, Refuses s) ∧
      ∀ session created writer pumps rs script, Outstanding (workspace session created writer pumps rs (St.init script)).2 := by
  refine ⟨fun cs h => h.sendable, fun cs s h hs => sendCommand_accepts h hs, unhex_argv, refuses, ?_⟩
  intro session created writer pumps rs script
  refine (sends_workspace session created writer pumps rs _ ?_).1
  intro cs hcs
  exact .inl (List.mem_singleton.1 hcs)

/-- the capture of one pane -/
theorem control_commands_closed_capture :
    commandsOf "capture-pane -p -e -N -t %7".toList = some [["capture-pane".toList, "-p".toList, "-e".toList, "-N".toList,
      "-t".toList, "%7".toList]] :=
  (control_commands_closed.1 [.capture "%7".toList] (.one (by show isPaneId _ = true; decide))).2

end OwlMux.Tmux
