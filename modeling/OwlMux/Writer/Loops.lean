/-
Steps of an attachment outside the blocks: the loops of chooser and workspace, the start of a control client, and the
directives of a workspace with the demotion they order (`set_writer(false)`).

Results:
- `receiveChooser_mode`, `receiveWorkspace_mode`, `started_mode`, `directive_mode`, `demoting_mode`: each keeps `Mode`.
-/
import Mathlib.Tactic
import OwlMux.Writer.Flags

namespace OwlMux.Writer

open OwlMux.Relay (Uuid Text)

variable {s s' : St} {x y : Uuid}
variable {a b : Attachment} {reg reg' cur cur' : Prop} {h : Option At} {ans ans' : ℕ → Option Outcome}

/-! ## Steps outside the blocks -/

theorem settled_of_live (ho : Ok a reg cur none ans) (hp : a.pc.plain = true) (hl : a.pc.live = true) : Settled a reg :=
  (ownFlags_of_plain hp).1 (ho.live hl)

/-- at a settled place, a registered client that nobody handles is writable -/
theorem Ok.readOnly (ho : Ok a reg cur h ans) (hp : a.pc.plain = true) (hr : reg) (hh : h = none) : a.readOnly = false := by
  subst hh
  cases hl : a.pc.live with
  | false => exact ho.gone hl rfl hr
  | true => exact ((settled_of_live ho hp hl).1 hr).2

/-- a move between settled places of the same kind, outside the blocks -/
theorem Mode.alike {c : Bool} (hM : Mode s) (hI : Inv s) (hx : (s.att x).pc.holdsState = false) {a : Attachment}
    (hab : Alike (s.att x) a) (hg : a.generation = (s.att x).generation) (ha : ∀ k, a.pc.at k = none)
    (hst : a.pc.holdsState = true → s.state = none) (hp : a.pc.plain = true) (hl : a.pc.live = (s.att x).pc.live)
    (he : a.pc.entered = (s.att x).pc.entered) (hlv : a.pc.leaving = (s.att x).pc.leaving) :
    Mode ({ s with checked := c }.put x a) := by
  refine hM.alone hI (fun _ _ => rfl) hx ha hst (Or.inl hg) ?_
  rw [hg]
  exact (hM.ok x).alike hab (plain_of_not_holdsState hx) hp hl he hlv

/-- a workspace is left -/
theorem Mode.leave (hM : Mode s) (hI : Inv s) {f : Uuid → ℕ → Option Outcome} (hf : ∀ y, y ≠ x → f y = s.answered y)
    (hx : (s.att x).pc.holdsState = false) {a : Attachment}
    (hg : a.generation = (s.att x).generation) (hlv : a.pc.leaving = true) (hn : a.pc.holdsState = false)
    (hro : s.control = some (s.sender x) → s.handling (s.sender x) = none → a.readOnly = false) :
    Mode ({ s with answered := f }.put x a) := by
  refine hM.alone hI hf hx (at_of_not_holdsState hn) (by simp [hn]) (Or.inl hg) ?_
  rw [hg]
  exact Ok.leave hro hlv rfl

theorem exit_live (hl : a.pc.live = true) {e : Exit} (he : e ≠ .resume) :
    (a.exit e).pc.leaving = true ∧ (a.exit e).pc.holdsState = false ∧ (a.exit e).readOnly = a.readOnly ∧
      (a.exit e).generation = a.generation := by
  cases e with
  | resume => exact (he rfl).elim
  | chooser | close => simp [Attachment.exit, hl, Pc.leaving, Pc.holdsState]

theorem exit_idle (hl : a.pc.live = false) (e : Exit) :
    (a.exit e).pc.live = false ∧ (a.exit e).pc.entered = false ∧ (a.exit e).pc.leaving = false ∧
      (a.exit e).pc.holdsState = false ∧ (a.exit e).pc.isDemoting = false ∧ (a.exit e).readOnly = a.readOnly ∧
      (a.exit e).directives = a.directives ∧ (a.exit e).generation = a.generation := by
  obtain ⟨pc, hex, h1, h2, h3, h4, h5⟩ : ∃ pc, a.exit e = { a with pc := pc } ∧ pc.live = false ∧ pc.entered = false ∧
      pc.leaving = false ∧ pc.holdsState = false ∧ pc.isDemoting = false := by
    cases e with
    | resume => exact ⟨.chooser, by simp [Attachment.exit, hl], rfl, rfl, rfl, rfl, rfl⟩
    | chooser => exact ⟨.connecting, by simp [Attachment.exit, hl], rfl, rfl, rfl, rfl, rfl⟩
    | close => exact ⟨.waiting .release, by simp [Attachment.exit, hl], rfl, rfl, rfl, rfl, rfl⟩
  rw [hex]
  exact ⟨h1, h2, h3, h4, h5, rfl, rfl, rfl⟩

/-- leaving a loop of the workspace -/
theorem Mode.exitLive (hM : Mode s) (hI : Inv s) (hx : (s.att x).pc.holdsState = false) (hl : (s.att x).pc.live = true)
    {e : Exit} (he : e ≠ .resume) : Mode (s.exit x e) := by
  obtain ⟨h1, h2, h3, h4⟩ := exit_live hl he
  refine hM.leave hI (fun _ _ => rfl) hx h4 h1 h2 fun hr hh => ?_
  rw [h3]
  exact (hM.ok x).readOnly (plain_of_not_holdsState hx) hr hh

/-- returning from a place without a workspace -/
theorem Mode.exitIdle (hM : Mode s) (hI : Inv s) (hx : (s.att x).pc.holdsState = false) (hl : (s.att x).pc.live = false)
    (he : (s.att x).pc.entered = false) (hlv : (s.att x).pc.leaving = false) (hd : (s.att x).pc.isDemoting = false)
    (e : Exit) : Mode (s.exit x e) := by
  obtain ⟨h1, h2, h3, h4, h5, h6, h7, h8⟩ := exit_idle hl e
  exact hM.alike hI hx ⟨h6, h7, hd, h5⟩ h8 (at_of_not_holdsState h4) (by simp [h4]) (plain_of_not_holdsState h4)
    (h1.trans hl.symm) (h2.trans he.symm) (h3.trans hlv.symm)

/-- a new place of the same kind, outside the blocks -/
theorem Mode.goto {c : Bool} (hM : Mode s) (hI : Inv s) (hx : (s.att x).pc.holdsState = false) {pc : Pc}
    (hd : (s.att x).pc.isDemoting = false) (hd' : pc.isDemoting = false) (hn : pc.holdsState = false)
    (hl : pc.live = (s.att x).pc.live) (he : pc.entered = (s.att x).pc.entered) (hlv : pc.leaving = (s.att x).pc.leaving) :
    Mode ({ s with checked := c }.goto x pc) :=
  hM.alike hI hx ⟨rfl, rfl, hd, hd'⟩ rfl (at_of_not_holdsState hn) (by simp [hn])
    (plain_of_not_holdsState hn) hl he hlv

theorem Mode.tryDispatch (hM : Mode s) (hI : Inv s) (hx : (s.att x).pc.holdsState = false) {pc : Pc}
    (hd : (s.att x).pc.isDemoting = false) (hd' : pc.isDemoting = false) (hn : pc.holdsState = false)
    (hl : pc.live = (s.att x).pc.live) (he : pc.entered = (s.att x).pc.entered) (hlv : pc.leaving = (s.att x).pc.leaving) :
    Mode (tryDispatch s x pc) := by
  unfold Writer.tryDispatch
  split_ifs
  · exact hM
  · exact hM.goto hI hx hd hd' hn hl he hlv

theorem receiveChooser_mode (hM : Mode s) (hI : Inv s) (hpc : (s.att x).pc = .chooser) (f : Frame) :
    Mode (receiveChooser s x f) := by
  have hgo : ∀ pc : Pc, pc.isDemoting = false → pc.holdsState = false → pc.live = false → pc.entered = false →
      pc.leaving = false → Mode (s.goto x pc) := fun pc h1 h2 h3 h4 h5 =>
    hM.goto hI (by rw [hpc]; rfl) (by rw [hpc]; rfl) h1 h2 (by rw [h3, hpc]; rfl) (by rw [h4, hpc]; rfl) (by rw [h5, hpc]; rfl)
  have hex : ∀ e, Mode (s.exit x e) := fun e =>
    hM.exitIdle hI (by rw [hpc]; rfl) (by rw [hpc]; rfl) (by rw [hpc]; rfl) (by rw [hpc]; rfl) (by rw [hpc]; rfl) e
  cases f with
  | sessionSelect =>
    simp only [receiveChooser]
    split_ifs
    · exact hM
    · exact hgo _ rfl rfl rfl rfl rfl
  | writer =>
    simp only [receiveChooser]
    split_ifs
    · exact hM
    · exact hgo _ rfl rfl rfl rfl rfl
  | sessionRefresh =>
    simp only [receiveChooser]
    split_ifs
    · exact hM
    · exact hex _
  | sessionCreate =>
    simp only [receiveChooser]
    split_ifs
    · exact hM
    · exact hgo _ rfl rfl rfl rfl rfl
  | _ => exact hex _

theorem receiveWorkspace_mode (hM : Mode s) (hI : Inv s) (hpc : (s.att x).pc = .workspace) (f : Frame) :
    Mode (receiveWorkspace s x f) := by
  have hex : ∀ e, e ≠ .resume → Mode (s.exit x e) := fun e he =>
    hM.exitLive hI (by rw [hpc]; rfl) (by rw [hpc]; rfl) he
  have htry : ∀ t : Task, t.inWorkspace = true → t ≠ .enter → (Pc.locking t).leaving = false →
      Mode (tryDispatch s x (.locking t)) := fun t h1 h2 h3 =>
    hM.tryDispatch hI (by rw [hpc]; rfl) (by rw [hpc]; rfl) rfl rfl (by rw [hpc]; exact h1)
      (by rw [hpc]; simp [Pc.entered, h1, h2]) (by rw [h3, hpc]; rfl)
  cases f with
  | workspaceReturnToChooser stamp =>
    simp only [receiveWorkspace]
    split_ifs
    · exact hex _ (by simp)
    · exact hM
  | writer =>
    simp only [receiveWorkspace]
    split_ifs
    · exact hM
    · exact htry _ rfl (by simp) rfl
  | operation =>
    simp only [receiveWorkspace]
    split
    · exact hM
    · exact hM
    · exact hex _ (by simp)
    · exact htry _ rfl (by simp) rfl
  | _ => exact hex _ (by simp)

/-- a fresh control client: read-only, with a channel nobody holds -/
theorem started_mode (hM : Mode s) (hI : Inv s) (x : Uuid) : Mode (step s (.started x)) := by
  simp only [step]
  split_ifs with hpc
  · have hno : s.control ≠ some (s.sender x) := fun hr => by
      have := (hM.ok x).client hr
      simp [hpc, Pc.entered, Pc.leaving] at this
    have hnew : s.control ≠ some ⟨x, (s.att x).generation + 1⟩ := fun hr => by
      have := hM.generation _ hr
      simp [St.sender] at this
    have hhand : s.handling ⟨x, (s.att x).generation + 1⟩ = none := by
      by_contra hne
      unfold St.handling at hne
      cases hst : s.state with
      | none => simp [hst] at hne
      | some y =>
        simp only [hst, Option.bind_some] at hne
        split_ifs at hne
        · exact hne rfl
        · have := hM.bound y _ hne
          simp at this
    refine hM.alone hI (fun _ _ => rfl) (by rw [hpc]; rfl) (fun _ => rfl) (by simp [Pc.holdsState])
      (Or.inr ⟨by simp, hno⟩) ?_
    refine ⟨fun hr => (hnew hr).elim, by simp [Pc.entered, Task.inWorkspace], fun _ => ?_, fun hl => by
      simp [Pc.live, Task.inWorkspace] at hl⟩
    show Flags _ _ _ (s.handling ⟨x, (s.att x).generation + 1⟩)
    rw [hhand]
    exact ⟨fun hr => (hnew hr).elim, fun _ => Or.inl ⟨⟨rfl, Or.inl rfl⟩, rfl⟩⟩
  · exact hM

/-! ## Directives -/

/-- taking a `Demote` out of the channel -/
theorem flags_demote {n : ℕ} {rest : List Directive} (hpc : a.pc = .workspace) (hd : a.directives = .demote n :: rest)
    (hf : Flags a reg ans h) : Flags { a with directives := rest, pc := .demoting n false } reg ans h := by
  have hquiet : ¬ a.Quiet := fun hq => by
    rcases hq.2 with h | h <;> simp [hd] at h
  have hdemoted : ¬ a.Demoted := fun hq => by simpa [hd] using hq.2.2
  have hpend : ∀ m, a.Pending m → m = n ∧ ({ a with directives := rest, pc := .demoting n false } : Attachment).Pending m := by
    rintro m ⟨hro, ⟨-, hm | hm⟩ | ⟨-, hm⟩⟩
    · obtain ⟨rfl, rfl⟩ : n = m ∧ rest = [] := by simpa [hd] using hm
      exact ⟨rfl, hro, Or.inr ⟨⟨false, rfl⟩, rfl⟩⟩
    · simp [hd] at hm
    · simp [hd] at hm
  cases h with
  | none =>
    have hs := (ownFlags_of_plain (by rw [hpc]; rfl)).1 hf
    refine ⟨fun hr => (hquiet (hs.1 hr).1).elim, fun hr => Or.inr ?_⟩
    rcases hs.2 hr with ho | ⟨hro, ⟨-, m, hm | hm⟩ | ⟨hdem, -⟩⟩
    · exact (hquiet ho.1).elim
    · obtain ⟨-, rfl⟩ : n = m ∧ rest = [.close] := by simpa [hd] using hm
      exact ⟨hro, Or.inr ⟨rfl, rfl⟩⟩
    · simp [hd] at hm
    · simp [hpc, Pc.isDemoting] at hdem
  | some p =>
    cases p with
    | demoteSend => exact (hquiet hf.1).elim
    | demoteWait old m =>
      rcases hf.1 with hm | hm
      · exact ⟨Or.inl (hpend m hm).2, fun he => (hdemoted (hf.2 he)).elim⟩
      · exact (hdemoted hm).elim
    | demoted old o =>
      rcases hf.1 with ⟨m, hm⟩ | hm
      · exact ⟨Or.inl ⟨m, (hpend m hm).2⟩, fun he => (hdemoted (hf.2 he)).elim⟩
      · exact (hdemoted hm).elim
    | closeOld =>
      rcases hf with ⟨m, hm⟩ | hm
      · exact Or.inl ⟨m, (hpend m hm).2⟩
      · exact (hdemoted hm).elim
    | _ => exact (hdemoted hf).elim

/-- the flag while a demotion runs: the client is writable, the channel is empty or holds the `Close` that follows -/
theorem flags_demoting_iff {n : ℕ} {second : Bool} (hpc : a.pc = .demoting n second) :
    Flags a reg ans h ↔ a.readOnly = false ∧
      match h with
      | none => ¬ reg ∧ a.directives = [.close]
      | some (.demoteWait _ m) => m = n ∧ a.directives = [] ∧ ans m ≠ some .succeeded
      | some (.demoted _ o) => a.directives = [] ∧ o ≠ .succeeded
      | some (.closeOld ..) => a.directives = []
      | _ => False := by
  have hdem : a.pc.isDemoting = true := by rw [hpc]; rfl
  have hdemoted : ¬ a.Demoted := fun hq => by simpa [hdem] using hq.1
  have hpend : ∀ m, a.Pending m ↔ a.readOnly = false ∧ m = n ∧ a.directives = [] := by
    intro m
    constructor
    · rintro ⟨hro, ⟨hnd, -⟩ | ⟨⟨b, hb⟩, hd⟩⟩
      · simp [hdem] at hnd
      · obtain ⟨rfl, -⟩ : n = m ∧ second = b := by simpa [hpc] using hb
        exact ⟨hro, rfl, hd⟩
    · rintro ⟨hro, rfl, hd⟩
      exact ⟨hro, Or.inr ⟨⟨second, hpc⟩, hd⟩⟩
  cases h with
  | none =>
    simp only [Flags]
    rw [ownFlags_of_plain (by rw [hpc]; rfl)]
    constructor
    · intro hs
      have hr : ¬ reg := fun hr => by simpa [hdem] using (hs.1 hr).1.1
      rcases hs.2 hr with ho | ⟨hro, ⟨hnd, -⟩ | ⟨-, hd⟩⟩
      · simpa [hdem] using ho.1.1
      · simp [hdem] at hnd
      · exact ⟨hro, hr, hd⟩
    · rintro ⟨hro, hr, hd⟩
      exact ⟨fun h => (hr h).elim, fun _ => Or.inr ⟨hro, Or.inr ⟨hdem, hd⟩⟩⟩
  | some p =>
    cases p with
    | demoteSend => exact iff_of_false (fun hw => by simpa [hdem] using hw.1.1) (by simp)
    | demoteWait old m =>
      simp only [Flags, hpend, hdemoted, or_false]
      tauto
    | demoted old o =>
      simp only [Flags, hpend, hdemoted, or_false]
      constructor
      · rintro ⟨⟨m, hro, -, hd⟩, ho⟩; exact ⟨hro, hd, ho⟩
      · rintro ⟨hro, hd, ho⟩; exact ⟨⟨n, hro, rfl, hd⟩, ho⟩
    | closeOld =>
      simp only [Flags, hpend, hdemoted, or_false]
      constructor
      · rintro ⟨m, hro, -, hd⟩; exact ⟨hro, hd⟩
      · rintro ⟨hro, hd⟩; exact ⟨n, hro, rfl, hd⟩
    | _ => exact iff_of_false hdemoted (by simp)

/-- a demotion that succeeds -/
theorem flags_demoted {n : ℕ} {second : Bool} (hpc : a.pc = .demoting n second) (hf : Flags a reg ans h) :
    Flags { a with readOnly := true, pc := .workspace } reg (Function.update ans n (some .succeeded)) h := by
  have hf' := (flags_demoting_iff hpc).1 hf
  have hdem : a.directives = [] → ({ a with readOnly := true, pc := .workspace } : Attachment).Demoted := fun hd => ⟨rfl, rfl, hd⟩
  cases h with
  | none =>
    obtain ⟨-, hr, hd⟩ := hf'
    exact ⟨fun h => (hr h).elim, fun _ => Or.inl ⟨⟨rfl, Or.inr hd⟩, rfl⟩⟩
  | some p =>
    cases p with
    | demoteWait old m => exact ⟨Or.inr (hdem hf'.2.2.1), fun _ => hdem hf'.2.2.1⟩
    | demoted old o => exact ⟨Or.inr (hdem hf'.2.1), fun _ => hdem hf'.2.1⟩
    | closeOld => exact Or.inr (hdem hf'.2)
    | _ => exact hf'.2.elim

theorem directive_mode (hM : Mode s) (hI : Inv s) (x : Uuid) : Mode (step s (.directive x)) := by
  simp only [step]
  split
  · rename_i n rest hpc hd
    have ho := hM.ok x
    refine hM.alone hI (fun _ _ => rfl) (by rw [hpc]; rfl) (fun _ => rfl) (by simp [Pc.holdsState]) (Or.inl rfl) ?_
    refine ⟨fun _ => Or.inl rfl, fun _ => ho.known (by rw [hpc]; rfl), fun _ => ?_, fun hl => by simp [Pc.live] at hl⟩
    exact flags_demote hpc hd (ho.live (by rw [hpc]; rfl))
  · rename_i hpc _
    exact hM.exitLive hI (by rw [hpc]; rfl) (by rw [hpc]; rfl) (by simp)
  · exact hM

theorem Answer.applied_of_succeeded {answer : Answer} (h : answer.outcome = .succeeded) : answer.applied = true := by
  cases answer <;> simp_all [Answer.outcome, Answer.applied]

theorem demoting_mode (hM : Mode s) (hI : Inv s) {n : ℕ} {second : Bool} (hpc : (s.att x).pc = .demoting n second)
    (answer : Answer) : Mode (command s x answer) := by
  have hx : (s.att x).pc.holdsState = false := by rw [hpc]; rfl
  have hl : (s.att x).pc.live = true := by rw [hpc]; rfl
  have ho := hM.ok x
  have hf := ho.live hl
  have hans : ∀ o y, y ≠ x → (s.respond x n o).answered y = s.answered y := fun o y hy => by simp [St.respond, hy]
  -- a registered client whose demotion runs is being handled
  have hbusy : s.control = some (s.sender x) → s.handling (s.sender x) ≠ none := by
    intro hr hh
    rw [hh] at hf
    exact ((flags_demoting_iff hpc).1 hf).2.1 hr
  have hfail : ∀ (b : Attachment) (o : Option Outcome), b.pc.live = true → b.generation = (s.att x).generation →
      Mode ((s.respond x n o).put x (b.exit .chooser)) := by
    intro b o hb hg
    obtain ⟨h1, h2, h3, h4⟩ := exit_live (e := .chooser) hb (by simp)
    exact hM.leave hI (hans o) hx (h4.trans hg) h1 h2 fun hr hh => (hbusy hr hh).elim
  cases second with
  | false =>
    simp only [command, hpc]
    split_ifs
    · refine hM.alone hI (fun _ _ => rfl) hx (fun _ => rfl) (by simp [Pc.holdsState]) (Or.inl rfl) ?_
      refine ⟨fun _ => Or.inl rfl, fun _ => ho.known (by rw [hpc]; rfl), fun _ => ?_, fun h => by simp [Pc.live] at h⟩
      exact (flags_demoting_iff (show _ = Pc.demoting n true from rfl)).2 ((flags_demoting_iff hpc).1 hf)
    · exact hfail _ _ (by simpa [Attachment.refreshClient] using hl) rfl
  | true =>
    simp only [command, hpc]
    split_ifs with hsucc
    · have hro : (s.att x).readOnly = false := ((flags_demoting_iff hpc).1 hf).1
      have hexit : ((s.att x).switchClient answer).exit .resume = { s.att x with readOnly := true, pc := .workspace } := by
        simp [Attachment.exit, Attachment.switchClient, hl, hro, Answer.applied_of_succeeded hsucc]
      rw [hexit]
      refine hM.alone hI (hans _) hx (fun _ => rfl) (by simp [Pc.holdsState]) (Or.inl rfl) ?_
      refine ⟨fun _ => Or.inl rfl, fun _ => ho.known (by rw [hpc]; rfl), fun _ => ?_, fun h => by simp [Pc.live] at h⟩
      rw [Function.update_self]
      exact flags_demoted hpc hf
    · exact hfail _ _ (by simpa [Attachment.switchClient] using hl) rfl

end OwlMux.Writer
