/-
Agreement of the writer pointer with the read-only flags of the tmux control clients (`ControlAdapter::set_writer`,
`change_writer_with_control`, the directive branch of `workspace`).

While both mutexes are free, the client registered for the current writer is writable, and every other live workspace
observes or has been told to close. `set_writer(true)` toggles the flag, so this rests on its finding the client
read-only. An abandoned workspace does not meet that: its `Demote` timed out, its client is still writable, and a claim on
its socket may be handled before the `Demote` and `Close` in its channel.

Results:
- `mode_agreement`: the agreement, in every run in which no `set_writer(true)` starts with a `Demote` waiting in the
  workspace's own channel;
- `late_claim_inverts`: a run in which the current writer's client is read-only.
-/
import Mathlib.Tactic
import OwlMux.Writer.Blocks

namespace OwlMux.Writer

open OwlMux.Relay (Uuid Text)

variable {s s' : St} {x y : Uuid}

/-! ## The remaining places -/

theorem mutated_mode (hM : Mode s) (hI : Inv s) {t : Task} {o : Outcome} (hpc : (s.att x).pc = .critical t (.mutated o)) :
    Mode (proceed s x t (.mutated o)) := by
  obtain ⟨ht, -, hcur⟩ := (hI.place hpc).2
  have hte : t ≠ .enter := by rintro rfl; simp [Task.mutates] at ht
  have hreply : ∀ r, Mode (s.goto x (.critical t (.reply r .resume))) := fun r =>
    hM.walk hI hpc hte rfl rfl rfl rfl
  have hnone : ∀ r, Mode ({ s with current := none }.goto x (.critical t (.reply r .chooser))) := fun r =>
    hM.within hI hpc rfl rfl (critical_at rfl) (foreign_none hI (Or.inl hcur))
      (Ok.lost (by simp) (by simp [isCurrent]) fun _ => by simp [OwnFlags])
  simp only [proceed]
  split_ifs
  · exact hM.exitClear hI hpc rfl (by simp)
  · cases t with
    | create stamp name =>
      have hidle : ∀ r, Mode (s.goto x (.critical (.create stamp name) (.reply r .chooser))) := fun r =>
        hM.idle hI hpc rfl rfl rfl (foreign_keep s x) (not_registered_of_idle hM hI hpc rfl (by simp))
      cases o with
      | succeeded | failed => exact hidle _
      | ambiguous => exact hnone _
    | operate stamp op =>
      cases o with
      | failed => exact hreply _
      | ambiguous =>
        simp only [clearIfCurrent_eq_none hcur]
        exact hnone _
      | succeeded =>
        cases op with
        | clientResize size =>
          have hctl : (updateSize x size s.current).bind Handle.control = s.control := control_updateSize x size
          refine hM.within hI hpc rfl rfl (critical_at rfl)
            (foreign_modify hI (f := fun g => { g with size := size }) (fun _ => rfl) fun _ => Or.inl rfl) ?_
          show Ok _ ((updateSize x size s.current).bind Handle.control = _) (isCurrent x (updateSize x size s.current) = true) _ _
          rw [hctl, isCurrent_updateSize]
          exact hM.own_alike hI hpc (by simp) rfl rfl rfl rfl rfl
        | windowSelect | paneSelect => exact hM.walk hI hpc (by simp) rfl rfl rfl rfl
        | paneInput | workspaceRefresh => exact hreply _
    | _ => simp [Task.mutates] at ht

theorem projected_mode (hM : Mode s) (hI : Inv s) {t : Task} {w : Option Workspace}
    (hpc : (s.att x).pc = .critical t (.projected w)) : Mode (proceed s x t (.projected w)) := by
  have ho := hM.own hI hpc
  have hloop : ∀ w', (Pc.critical t (.projected w)).entered = true → t.inWorkspace = true → (∀ c, t ≠ .leave c) →
      Mode (s.put x { s.att x with workspace := w', pc := .workspace }) := by
    intro w' he hl hlv
    refine hM.quit hI hpc rfl rfl rfl (foreign_keep s x) ?_
    refine ho.alike ⟨rfl, rfl, by rw [hpc]; rfl, rfl⟩ (by rw [hpc]; rfl) rfl ?_ ?_ ?_
    · rw [hpc]; exact hl.symm
    · rw [hpc, he]; rfl
    · rw [hpc, not_leaving_critical hlv]; rfl
  have hreply : ∀ w' r, t ≠ .enter → Mode (s.put x { s.att x with workspace := w', pc := .critical t (.reply r .resume) }) := by
    intro w' r hte
    refine hM.within hI hpc rfl rfl (critical_at rfl) (foreign_keep s x) ?_
    exact hM.own_alike hI hpc hte rfl rfl rfl rfl rfl
  cases t with
  | enter =>
    simp only [proceed]
    split_ifs
    · exact hM.exitClear hI hpc rfl (by simp)
    · cases w with
      | none => exact hM.exitBlock hI hpc (by simp) rfl rfl (by simp)
      | some w => exact hloop w rfl rfl (by simp)
  | claimControl =>
    cases w with
    | none => exact hM
    | some w =>
      simp only [proceed]
      split_ifs
      · exact hM.exitClear hI hpc rfl (by simp)
      · exact hreply w _ (by simp)
  | operate stamp op =>
    cases w with
    | none => exact hM
    | some w =>
      simp only [proceed]
      split_ifs
      · exact hM.exitBlock hI hpc (by simp) rfl rfl (by simp)
      · cases op with
        | workspaceRefresh => exact hreply w _ (by simp)
        | _ => exact hloop w rfl rfl (by simp)
  | _ => exact hM

theorem proceed_mode (hM : Mode s) (hI : Inv s) {t : Task} {p : At} (hpc : (s.att x).pc = .critical t p) :
    Mode (proceed s x t p) := by
  cases p with
  | start => exact start_mode hM hI hpc
  | demoteSend => exact demoteSend_mode hM hI hpc
  | demoteWait => exact demoteWait_mode hM hI hpc
  | demoted => exact demoted_mode hM hI hpc
  | closeOld => exact closeOld_mode hM hI hpc
  | wrote => exact wrote_mode hM hI hpc
  | resized => exact resized_mode hM hI hpc
  | mutated => exact mutated_mode hM hI hpc
  | projected => exact projected_mode hM hI hpc
  | _ => exact hM

/-! ## Commands -/

def Directive.isDemote : Directive → Bool
  | .demote _ => true
  | .close => false

/-- a `set_writer(true)` starts with a `Demote` waiting in the workspace's own channel -/
def demoteWaiting (s : St) : Op → Bool
  | .command x _ =>
    match (s.att x).pc with
    | .critical _ (.setWriter _ false) => (s.att x).directives.any Directive.isDemote
    | _ => false
  | _ => false

def NoDemoteWaiting (s : St) (o : Op) : Prop := demoteWaiting s o = false

instance (s : St) (o : Op) : Decidable (NoDemoteWaiting s o) := inferInstanceAs (Decidable (demoteWaiting s o = false))

/-- the claimant's client is read-only and stays so until it is toggled -/
theorem observing_of_setWriter (hM : Mode s) (hI : Inv s) {t : Task} {old : Option Sender}
    (hpc : (s.att x).pc = .critical t (.setWriter old false))
    (hd : (s.att x).directives.any Directive.isDemote = false) : (s.att x).Observing := by
  have hf := (hI.place hpc).2
  have ho := hM.own hI hpc
  have hfl : t.flags = true := by cases old <;> exact hf.1
  have hl : t.inWorkspace = true := by cases t <;> simp_all [Task.flags, Task.inWorkspace]
  -- the pointer is another's or, on entry, not registered yet
  have hreg : s.control ≠ some (s.sender x) := by
    intro hr
    cases old with
    | some k => exact hf.2.2.2.ne (by
        obtain ⟨g, hg, hk, -⟩ := hf.2.2.2
        have : s.control = some k := by simp [St.control, hg, hk]
        rw [this] at hr
        rw [Option.some.inj hr]; rfl)
    | none =>
      by_cases hte : t = .enter
      · subst hte
        rcases ho.client hr with h | h <;> simp [hpc, Pc.entered, Pc.leaving] at h
      · have := (hf.2.2.2 hte).2
        rw [show s.control = none from this] at hr; cases hr
  rcases (settled_of_live ho (by rw [hpc]; rfl) (by rw [hpc]; exact hl)).2 hreg with h | ⟨-, ⟨-, n, hn | hn⟩ | ⟨hdem, -⟩⟩
  · exact h
  · simp [hn, Directive.isDemote] at hd
  · simp [hn, Directive.isDemote] at hd
  · simp [hpc, Pc.isDemoting] at hdem

/-- one's own move while the flag is being set -/
theorem Mode.setting (hM : Mode s) (hI : Inv s) {t : Task} {p q : At} (hpc : (s.att x).pc = .critical t p)
    (ht : t.inWorkspace = true) (hent : (Pc.critical t q).entered = (Pc.critical t p).entered) {a : Attachment}
    (hac : a.pc = .critical t q) (hf : OwnFlags a (s.control = some (s.sender x))) :
    Ok a (s.control = some (s.sender x)) (isCurrent x s.current = true) none (s.answered x) := by
  have ho := hM.own hI hpc
  refine ⟨fun hr => ?_, fun he => ho.known ?_, fun _ => hf, fun hl => ?_⟩
  · rw [hac, hent, leaving_critical t q p, ← hpc]
    exact ho.client hr
  · rw [hac, hent, ← hpc] at he
    exact he
  · rw [hac] at hl
    have : t.inWorkspace = false := hl
    rw [ht] at this; cases this

theorem inWorkspace_of_flags {t : Task} (h : t.flags = true) : t.inWorkspace = true := by
  cases t <;> first | rfl | simp [Task.flags] at h

theorem not_leave_of_flags {t : Task} (h : t.flags = true) (c : Bool) : t ≠ .leave c := by
  rintro rfl; simp [Task.flags] at h

theorem flags_of_setWriter (hI : Inv s) {t : Task} {old : Option Sender} {second : Bool}
    (hpc : (s.att x).pc = .critical t (.setWriter old second)) : t.flags = true := by
  have hf := (hI.place hpc).2
  cases old <;> exact hf.1

theorem entered_setting (t : Task) (old : Option Sender) (o : Outcome) (b c : Bool) :
    (Pc.critical t (.wrote old o)).entered = (Pc.critical t (.setWriter old b)).entered ∧
      (Pc.critical t (.setWriter old c)).entered = (Pc.critical t (.setWriter old b)).entered := by
  cases t <;> exact ⟨rfl, rfl⟩

theorem ownFlags_wrote {a : Attachment} {reg : Prop} {t : Task} {old : Option Sender} {o : Outcome}
    (hac : a.pc = .critical t (.wrote old o)) (hw : o = .succeeded → a.Writable) : OwnFlags a reg := by
  cases o <;> simp_all [OwnFlags]

/-- `switch-client -r`: the toggle makes a client writable that was read-only -/
theorem switchClient_mode (hM : Mode s) (hI : Inv s) {t : Task} {old : Option Sender}
    (hpc : (s.att x).pc = .critical t (.setWriter old false)) (hd : (s.att x).directives.any Directive.isDemote = false)
    (answer : Answer) : Mode (command s x answer) := by
  have ht := inWorkspace_of_flags (flags_of_setWriter hI hpc)
  simp only [command, hpc]
  split_ifs with hsucc
  · have hobs := observing_of_setWriter hM hI hpc hd
    refine hM.along hI hpc (q := .setWriter old true) rfl rfl rfl ?_ fun y reg _ _ _ hf => hf
    refine hM.setting hI hpc ht (entered_setting t old .succeeded false true).2 rfl ?_
    refine ⟨⟨rfl, hobs.1.2⟩, ?_⟩
    simp [Attachment.switchClient, hobs.2, Answer.applied_of_succeeded hsucc]
  · refine hM.along hI hpc (q := .wrote old answer.outcome) rfl rfl rfl ?_ fun y reg _ _ _ hf => hf
    exact hM.setting hI hpc ht (entered_setting t old answer.outcome false false).1 rfl
      (ownFlags_wrote rfl fun h => (hsucc h).elim)

theorem refreshClient_mode (hM : Mode s) (hI : Inv s) {t : Task} {old : Option Sender}
    (hpc : (s.att x).pc = .critical t (.setWriter old true)) (answer : Answer) : Mode (command s x answer) := by
  have ht := inWorkspace_of_flags (flags_of_setWriter hI hpc)
  have hw : (s.att x).Writable := by
    have := (hM.own hI hpc).live (by rw [hpc]; exact ht)
    simpa [Flags, OwnFlags, hpc] using this
  simp only [command, hpc]
  refine hM.along hI hpc (q := .wrote old answer.outcome) rfl rfl rfl ?_ fun y reg _ _ _ hf => hf
  exact hM.setting hI hpc ht (entered_setting t old answer.outcome true false).1 rfl
    (ownFlags_wrote rfl fun _ => ⟨⟨rfl, hw.1.2⟩, hw.2⟩)

theorem resize_mode (hM : Mode s) (hI : Inv s) {t : Task} {old : Option Sender}
    (hpc : (s.att x).pc = .critical t (.resize old)) (answer : Answer) : Mode (command s x answer) := by
  obtain ⟨ht, -, hcur, -⟩ := (hI.place hpc).2
  have ho := hM.own hI hpc
  simp only [command, hpc]
  split_ifs
  · refine hM.along hI hpc (q := .resized old answer.outcome) rfl rfl rfl ?_ fun y reg _ _ _ hf => hf
    refine ho.alike ⟨rfl, rfl, by rw [hpc]; rfl, rfl⟩ (by rw [hpc]; rfl) rfl (by rw [hpc]; rfl) ?_ ?_
    · rw [hpc]; cases t <;> rfl
    · rw [hpc]; exact leaving_critical t _ _
  · refine hM.goOn hI hpc rfl (fun k _ => sole_of_isCurrent hcur) (fun _ => Or.inl hcur) (exit_generation _ _)
      (Or.inl (at_of_not_holdsState (exit_holdsState _ _)))
      (fun y hy => Bool.eq_false_iff.2 fun h => hy (isCurrent_unique h hcur)) hI.control (fun k hk => Or.inl hk) ?_
    exact ho.exit (by rw [hpc]; exact not_leaving_critical (not_leave_of_flags ht)) (by rw [hpc]; rfl)
      (fun hr => ho.readOnly (by rw [hpc]; rfl) hr rfl) .close (by simp) (by rw [hpc]; exact entered_of_live _)

theorem command_mode (hM : Mode s) (hI : Inv s) {answer : Answer} (hok : NoDemoteWaiting s (.command x answer)) :
    Mode (command s x answer) := by
  cases hpc : (s.att x).pc with
  | demoting n second => exact demoting_mode hM hI hpc answer
  | critical t p =>
    cases p with
    | setWriter old second =>
      cases second with
      | false => exact switchClient_mode hM hI hpc (by simpa [NoDemoteWaiting, demoteWaiting, hpc] using hok) answer
      | true => exact refreshClient_mode hM hI hpc answer
    | resize => exact resize_mode hM hI hpc answer
    | mutate =>
      obtain ⟨ht, -, -⟩ := (hI.place hpc).2
      simp only [command, hpc]
      split_ifs
      · exact hM.walk hI hpc (by rintro rfl; simp [Task.mutates] at ht) rfl rfl rfl rfl
      · exact hM.exitBlock hI hpc (by rintro c rfl; simp [Task.mutates] at ht) rfl rfl (by simp)
    | _ => simpa [command, hpc] using hM
  | _ => simpa [command, hpc] using hM

/-! ## Projections and replies -/

theorem project_mode (hM : Mode s) (hI : Inv s) (q : Projection) : Mode (project s x q) := by
  cases hpc : (s.att x).pc with
  | refreshing =>
    have hx : (s.att x).pc.holdsState = false := by rw [hpc]; rfl
    have hl : (s.att x).pc.live = true := by rw [hpc]; rfl
    have hex : ∀ e, e ≠ .resume → Mode (s.exit x e) := fun e he => hM.exitLive hI hx hl he
    cases q with
    | error => simpa only [project, hpc] using hex .close (by simp)
    | changed => simpa only [project, hpc] using hex .chooser (by simp)
    | installed w =>
      simp only [project, hpc]
      split_ifs
      · exact hex _ (by simp)
      · exact hM.alike hI hx ⟨rfl, rfl, by rw [hpc]; rfl, rfl⟩ rfl (fun _ => rfl) (by simp [Pc.holdsState]) rfl
          (by rw [hpc]; rfl) (by rw [hpc]; rfl) (by rw [hpc]; rfl)
  | critical t p =>
    cases p with
    | project =>
      obtain ⟨ht, -⟩ := (hI.place hpc).2
      have hlv : ∀ c, t ≠ .leave c := by rintro c rfl; simp [Task.inWorkspace] at ht
      have hex : ∀ e, e ≠ .resume → Mode (s.exit x e) := fun e he => hM.exitBlock hI hpc hlv rfl rfl fun h => (he h).elim
      have hgo : ∀ w, Mode (s.goto x (.critical t (.projected w))) := by
        intro w
        refine hM.within hI hpc rfl rfl (critical_at rfl) (foreign_keep s x) ?_
        refine (hM.own hI hpc).alike ⟨rfl, rfl, by rw [hpc]; rfl, rfl⟩ (by rw [hpc]; rfl) rfl (by rw [hpc]; rfl) ?_ ?_
        · rw [hpc]; cases t <;> rfl
        · rw [hpc]; exact leaving_critical t _ _
      cases q with
      | error => cases t <;> simpa only [project, hpc] using hex .close (by simp)
      | installed w => cases t <;> simpa only [project, hpc] using hgo (some w)
      | changed =>
        cases t with
        | enter => simpa only [project, hpc] using hgo none
        | claimControl => simpa only [project, hpc] using hM.exitClear hI hpc rfl (by simp)
        | operate => simpa only [project, hpc] using hex .chooser (by simp)
        | _ => simp [Task.inWorkspace] at ht
    | _ => simpa [project, hpc] using hM
  | _ => simpa [project, hpc] using hM

/-- a reply is sent, or cannot be, and the handler returns -/
theorem reply_mode (hM : Mode s) (hI : Inv s) {t : Task} {r : Reply} {e e' : Exit}
    (hpc : (s.att x).pc = .critical t (.reply r e)) (he : e' = .resume → e = .resume) : Mode (s.exit x e') := by
  have ht := (hI.place hpc).2.1
  have hlv : ∀ c, t ≠ .leave c := by rintro c rfl; simp [Task.claims, Task.mutates] at ht
  have hte : t ≠ .enter := by rintro rfl; simp [Task.claims, Task.mutates] at ht
  by_cases hres : e = .resume
  · subst hres
    exact hM.exitBlock hI hpc hlv rfl rfl fun _ => hte
  · have ho := hM.own hI hpc
    -- the attachment has given up the pointer
    have hro : s.control = some (s.sender x) → (s.att x).readOnly = false := by
      intro hr
      cases hl : (s.att x).pc.live with
      | false => exact ho.gone hl rfl hr
      | true =>
        have hf := ho.live hl
        cases e with
        | resume => exact (hres rfl).elim
        | chooser | close => exact (by simpa [Flags, OwnFlags, hpc] using hf : ¬ _) hr |>.elim
    refine hM.quit hI hpc rfl (exit_generation _ _) (exit_holdsState _ _) (foreign_keep s x) ?_
    exact ho.exit (by rw [hpc]; exact not_leaving_critical hlv) (by rw [hpc]; rfl) hro e' (fun h => (hres (he h)).elim)
      (by rw [hpc]; exact entered_of_live _)

/-! ## Runs -/

theorem lock_mode (hM : Mode s) (hI : Inv s) (x : Uuid) : Mode (step s (.lock x)) := by
  simp only [step]
  split
  · rename_i t hpc
    have hx : (s.att x).pc.holdsState = false := by rw [hpc]; rfl
    by_cases hfree : s.state.isSome = true
    · rw [if_pos hfree]
      exact hM
    · rw [if_neg hfree]
      have hgo : ∀ b, Mode ({ s with checked := b }.goto x (.critical t .start)) := by
        intro b
        refine hM.alike hI hx ⟨rfl, rfl, by rw [hpc]; rfl, rfl⟩ rfl (fun _ => rfl) (fun _ => by simpa using hfree) rfl
          (by rw [hpc]; rfl) ?_ ?_
        · rw [hpc]; cases t <;> rfl
        · rw [hpc]; cases t <;> rfl
      cases t with
      | enter =>
        simp only []
        split_ifs
        · exact hM.exitLive hI hx (by rw [hpc]; rfl) (by simp)
        · exact hgo true
      | _ => exact hgo s.checked
  · exact hM

theorem hangUp_mode (hM : Mode s) (hI : Inv s) (x : Uuid) (close : Bool) : Mode (step s (.hangUp x close)) := by
  simp only [step]
  split
  · rename_i hpc
    exact hM.exitIdle hI (by rw [hpc]; rfl) (by rw [hpc]; rfl) (by rw [hpc]; rfl) (by rw [hpc]; rfl) (by rw [hpc]; rfl) _
  · rename_i hpc
    exact hM.exitIdle hI (by rw [hpc]; rfl) (by rw [hpc]; rfl) (by rw [hpc]; rfl) (by rw [hpc]; rfl) (by rw [hpc]; rfl) _
  · rename_i hpc
    have hno : s.control ≠ some (s.sender x) := fun hr => by
      have := (hM.ok x).client hr
      simp [hpc, Pc.entered, Pc.leaving] at this
    exact hM.leave hI (fun _ _ => rfl) (by rw [hpc]; rfl) rfl rfl rfl fun hr => (hno hr).elim
  · rename_i hpc
    exact hM.exitLive hI (by rw [hpc]; rfl) (by rw [hpc]; rfl) (by cases close <;> simp)
  · exact hM

theorem route_mode (hM : Mode s) (b : Bool) : Mode { s with route := b } := ⟨hM.generation, hM.bound, hM.ok⟩

/-- **Step lemma.** -/
theorem step_mode (hM : Mode s) (hI : Inv s) {o : Op} (hok : NoDemoteWaiting s o) : Mode (step s o) := by
  cases o with
  | route b => exact route_mode hM b
  | probed x epoch sessions =>
    simp only [step]
    split_ifs with hpc
    · exact hM.alike hI (by rw [hpc]; rfl) ⟨rfl, rfl, by rw [hpc]; rfl, rfl⟩ rfl (fun _ => rfl) (by simp [Pc.holdsState]) rfl
        (by rw [hpc]; rfl) (by rw [hpc]; rfl) (by rw [hpc]; rfl)
    · exact hM
  | receive x f =>
    simp only [step]
    split
    · rename_i hpc; exact receiveChooser_mode hM hI hpc f
    · rename_i hpc; exact receiveWorkspace_mode hM hI hpc f
    · exact hM
  | started x => exact started_mode hM hI x
  | directive x => exact directive_mode hM hI x
  | hangUp x close => exact hangUp_mode hM hI x close
  | refresh x =>
    simp only [step]
    split_ifs with hpc
    · exact hM.tryDispatch hI (by rw [hpc]; rfl) (by rw [hpc]; rfl) rfl rfl (by rw [hpc]; rfl) (by rw [hpc]; rfl) (by rw [hpc]; rfl)
    · exact hM
  | acquire x =>
    simp only [step]
    split
    · rename_i t hpc
      exact hM.tryDispatch hI (by rw [hpc]; rfl) (by rw [hpc]; rfl) rfl rfl (by rw [hpc]; rfl) (by rw [hpc]; rfl)
        (by rw [hpc]; cases t <;> rfl)
    · exact hM
  | lock x => exact lock_mode hM hI x
  | proceed x =>
    simp only [step]
    split
    · rename_i hpc; exact proceed_mode hM hI hpc
    · exact hM
  | command x answer => exact command_mode hM hI hok
  | project x q => exact project_mode hM hI q
  | reply x sent =>
    simp only [step]
    split
    · rename_i hpc; exact reply_mode hM hI hpc (by cases sent <;> simp)
    · rename_i t r hpc
      obtain ⟨ht, -⟩ := (hI.place hpc).2
      split_ifs
      · exact hM.walk hI hpc (by rintro rfl; simp [Task.mutates] at ht) rfl rfl rfl rfl
      · exact hM.exitBlock hI hpc (by rintro c rfl; simp [Task.mutates] at ht) rfl rfl (by simp)
    · exact hM
  | unavailable x ssh =>
    simp only [step]
    split
    · rename_i hpc
      split_ifs
      · exact hM.exitBlock hI hpc (by simp) rfl rfl (by simp)
      · exact hM.walk hI hpc (by simp) rfl rfl rfl rfl
    · exact hM

/-- **Run lemma.** -/
theorem run_mode (epoch : ℤ) (ops : List Op) (h : Machine.Along step NoDemoteWaiting (init epoch) ops) :
    Inv (run (init epoch) ops) ∧ Mode (run (init epoch) ops) :=
  Machine.run_inv_along (I := fun s => Inv s ∧ Mode s)
    (fun _ o hok hs => ⟨step_inv hs.1 o, step_mode hs.2 hs.1 hok⟩) _ _ h ⟨inv_init epoch, mode_init epoch⟩

/-- with both mutexes free, the client registered for the current writer is writable, and every other live workspace is
read-only or has a `Close` in its channel -/
def Agreement (s : St) : Prop :=
  s.dispatch = none → s.state = none →
    (∀ k, s.control = some k → k = s.sender k.attachment ∧ (s.att k.attachment).readOnly = false) ∧
    ∀ y, (s.att y).pc.live = true → isCurrent y s.current = false → (s.att y).readOnly = true ∨ .close ∈ (s.att y).directives

theorem Mode.agreement (hM : Mode s) (hI : Inv s) : Agreement s := by
  intro _ hst
  have hfree : ∀ y, (s.att y).pc.holdsState = false := fun y => Bool.eq_false_iff.2 fun hy => hI.state.ne_none hy hst
  have hok : ∀ y, Ok (s.att y) (s.control = some (s.sender y)) (isCurrent y s.current = true) none (s.answered y) := fun y => by
    have := hM.ok y
    rwa [handling_of_free hst] at this
  refine ⟨fun k hk => ?_, fun y hl hcur => ?_⟩
  · have hgen := hM.generation k hk
    exact ⟨hgen, (hok k.attachment).readOnly (plain_of_not_holdsState (hfree _)) (by rw [hk, ← hgen]) rfl⟩
  · have hreg : s.control ≠ some (s.sender y) := fun hr => by
      rw [registered_current hI hr] at hcur; cases hcur
    rcases (settled_of_live (hok y) (plain_of_not_holdsState (hfree y)) hl).2 hreg with h | ⟨-, ⟨-, n, hd | hd⟩ | ⟨-, hd⟩⟩
    · exact Or.inl h.2
    · exact Or.inr (by simp [hd])
    · exact Or.inr (by simp [hd])
    · exact Or.inr (by simp [hd])

/-- **Writer mode agreement.** In every run in which no `set_writer(true)` starts with a `Demote` waiting in the
workspace's own channel, pointer and flags agree in every state reached. -/
theorem mode_agreement (epoch : ℤ) (ops : List Op) (h : Machine.Along step NoDemoteWaiting (init epoch) ops) :
    ∀ pre post, ops = pre ++ post → Agreement (run (init epoch) pre) := by
  rintro pre post rfl
  obtain ⟨hI, hM⟩ := run_mode epoch pre ((Machine.along_append (init epoch) pre post).1 h).1
  exact hM.agreement hI

/-! ## A claim that overtakes its `Demote` -/

/-- attachment 1, the writer, opens a workspace; its client is made writable and registered -/
def writerEnters : List Op :=
  [.probed 1 11 [(['$', '0'], 7)], .receive 1 (.writer false ⟨['1'], 11⟩ ⟨80, 24⟩), .acquire 1, .lock 1, .proceed 1,
    .reply 1 true, .receive 1 (.sessionSelect ⟨['1'], 11⟩ ['$', '0'] 7), .started 1, .acquire 1, .lock 1, .proceed 1,
    .command 1 .succeeded, .command 1 .succeeded, .proceed 1, .command 1 .succeeded, .proceed 1,
    .project 1 (.installed ⟨12, [], [], []⟩), .proceed 1]

/-- attachment 2 takes over in its chooser, up to its wait for the answer to `Demote` -/
def takeoverSends : List Op :=
  [.probed 2 22 [], .receive 2 (.writer true ⟨['1'], 22⟩ ⟨80, 24⟩), .acquire 2, .lock 2, .proceed 2, .proceed 2]

/-- the demotion is carried out and the takeover succeeds -/
def takeoverAnswered : List Op :=
  [.directive 1, .command 1 .succeeded, .command 1 .succeeded, .proceed 2, .proceed 2, .reply 2 true]

/-- the agreement holds along that takeover: attachment 1 is live and read-only at its end -/
theorem takeoverAnswered_agreement :
    Agreement (run (init 1) (writerEnters ++ takeoverSends ++ takeoverAnswered)) ∧
    ((run (init 1) (writerEnters ++ takeoverSends ++ takeoverAnswered)).att 1).readOnly = true := by
  have h : Machine.Along step NoDemoteWaiting (init 1) (writerEnters ++ takeoverSends ++ takeoverAnswered) := by decide +kernel
  exact ⟨mode_agreement 1 _ h _ [] (by simp), by decide +kernel⟩

/-- the wait times out: the pointer is cleared and `Close` follows `Demote` in the channel of attachment 1 -/
def takeoverTimesOut : List Op := [.proceed 2, .proceed 2, .proceed 2, .reply 2 true]

/-- before it looks at its channel, attachment 1 handles a claim of its client -/
def lateClaim : List Op :=
  [.receive 1 (.writer false ⟨['1'], 12⟩ ⟨80, 24⟩), .lock 1, .proceed 1, .command 1 .succeeded, .command 1 .succeeded,
    .proceed 1, .command 1 .succeeded, .proceed 1, .project 1 (.installed ⟨13, [], [], []⟩), .proceed 1, .reply 1 true]

/-- **A late claim inverts the flag.** `set_writer(true)` finds the client of attachment 1 still writable and toggles it
to read-only: with both mutexes free, the current writer's registered client cannot write. -/
theorem late_claim_inverts :
    ¬ ∀ (epoch : ℤ) (ops : List Op), Agreement (run (init epoch) ops) := by
  intro h
  have h1 := h 1 (writerEnters ++ takeoverSends ++ takeoverTimesOut ++ lateClaim) (by decide +kernel) (by decide +kernel)
  have h2 : (run (init 1) (writerEnters ++ takeoverSends ++ takeoverTimesOut ++ lateClaim)).control = some ⟨1, 1⟩ := by
    decide +kernel
  have h3 : ((run (init 1) (writerEnters ++ takeoverSends ++ takeoverTimesOut ++ lateClaim)).att 1).readOnly = true := by
    decide +kernel
  have h4 := (h1.1 _ h2).2
  rw [h3] at h4
  cases h4

end OwlMux.Writer
