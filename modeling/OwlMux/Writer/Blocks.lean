/-
The blocks under the two mutexes and the modes of the workspaces: claim and takeover with their demotion of the former
writer (`change_writer_without_control`, `change_writer_with_control`), entering and leaving a workspace.

A claimant that replaces a writer goes through places that concern the replaced workspace (`At.onto`): it is writable
until `Demote` is sent, then pending, then demoted; a claimant that gives up sends it `Close`.

Results:
- `start_mode`, `demoteSend_mode`, `demoteWait_mode`, `demoted_mode`, `closeOld_mode`, `wrote_mode`, `resized_mode`: the
  code from each place keeps `Mode`.
-/
import Mathlib.Tactic
import OwlMux.Writer.Loops

namespace OwlMux.Writer

open OwlMux.Relay (Uuid Text)

variable {s s' : St} {x y : Uuid}
variable {a b : Attachment} {reg reg' cur cur' : Prop} {h : Option At} {ans ans' : ℕ → Option Outcome}

/-! ## Rules inside the blocks -/

/-- the attachment inside a block is not handled by another one -/
theorem Mode.own (hM : Mode s) (hI : Inv s) {t : Task} {p : At} (hpc : (s.att x).pc = .critical t p) :
    Ok (s.att x) (s.control = some (s.sender x)) (isCurrent x s.current = true) none (s.answered x) := by
  have := hM.ok x
  rwa [handling_self hI (by rw [hpc]; rfl)] at this

/-- a claim that has been given up: the pointer is not the attachment's -/
theorem Ok.lost (hreg : ¬ reg) (hcur : ¬ cur) (hf : a.pc.live = true → OwnFlags a reg) : Ok a reg cur none ans :=
  ⟨fun h => (hreg h).elim, fun _ h => (hcur h).elim, hf, fun _ _ h => (hreg h).elim⟩

/-- a claim that has succeeded: the channel is registered and the client writable -/
theorem Ok.won (hreg : reg) (hent : a.pc.entered = true) (hf : a.pc.live = true → OwnFlags a reg)
    (hl : a.pc.live = true) : Ok a reg cur none ans :=
  ⟨fun _ => Or.inl hent, fun _ _ => hreg, hf, fun h => by simp [hl] at h⟩

theorem entered_critical {t : Task} (ht : t ≠ .enter) (p : At) : (Pc.critical t p).entered = t.inWorkspace := by
  cases t <;> first | exact (ht rfl).elim | (cases p <;> rfl)

theorem leaving_critical (t : Task) (p q : At) : (Pc.critical t p).leaving = (Pc.critical t q).leaving := by
  cases t <;> rfl

/-- one's own move between settled places of a block -/
theorem Mode.own_alike (hM : Mode s) (hI : Inv s) {t : Task} {p q : At} (hpc : (s.att x).pc = .critical t p)
    (ht : t ≠ .enter) (hp : (Pc.critical t p).plain = true) (hq : (Pc.critical t q).plain = true) {a : Attachment}
    (hac : a.pc = .critical t q) (hro : a.readOnly = (s.att x).readOnly) (hd : a.directives = (s.att x).directives) :
    Ok a (s.control = some (s.sender x)) (isCurrent x s.current = true) none (s.answered x) := by
  refine (hM.own hI hpc).alike ⟨hro, hd, by rw [hpc]; rfl, by rw [hac]; rfl⟩ (by rw [hpc]; exact hp) (by rw [hac]; exact hq) ?_ ?_ ?_
  · rw [hac, hpc]; rfl
  · rw [hac, hpc, entered_critical ht, entered_critical ht]
  · rw [hac, hpc]; exact leaving_critical t q p

/-- **From place to place in replacing a workspace**, the pointer untouched. -/
theorem Mode.along (hM : Mode s) (hI : Inv s) {t : Task} {p q : At} (hpc : (s.att x).pc = .critical t p)
    {a : Attachment} (hac : a.pc = .critical t q) (hq : q.onto = p.onto) (hg : a.generation = (s.att x).generation)
    (hown : Ok a (s.control = some (s.sender x)) (isCurrent x s.current = true) none (s.answered x))
    (hf : ∀ y reg, y ≠ x → p.onto = some (s.sender y) → (s.att y).pc.live = true →
      Flags (s.att y) reg (s.answered y) (some p) → Flags (s.att y) reg (s.answered y) (some q)) :
    Mode (s.put x a) := by
  refine hM.acted hI hpc (acted_put hI hpc hg rfl ⟨rfl, rfl, rfl, rfl⟩) (fun k hk => Or.inl hk) (fun k hk => Or.inl ?_) hown
    fun y hy hfree ho => ?_
  · rw [hac] at hk
    exact hq ▸ onto_of_at hk
  · rw [hac, put_att_of_ne hy]
    by_cases hk : p.onto = some (s.sender y)
    · exact ho.shift hq fun hl => hf y _ hy hk hl
    · have h1 : (Pc.critical t p).at (s.sender y) = none := by simp [Pc.at, hk]
      have h2 : (Pc.critical t q).at (s.sender y) = none := by simp [Pc.at, hq, hk]
      rw [h1] at ho
      rwa [h2]

/-- only the replaced attachment, if any, has the pointer -/
def Sole (s : St) (x : Uuid) (old : Sender) : Prop := ∀ y, y ≠ x → isCurrent y s.current = true → s.sender y = old

theorem Mode.sole (hM : Mode s) {old : Sender} (hr : Replaces x s.current old) : Sole s x old := by
  intro y _ hcur
  obtain ⟨g, hg, hctl, hatt, -⟩ := hr
  have hgen := hM.generation old (by simp [St.control, hg, hctl])
  rw [hg] at hcur
  have : y = old.attachment := ((beq_iff_eq.1 hcur).symm).trans hatt
  rw [this, ← hgen]

theorem sole_of_isCurrent {old : Sender} (h : isCurrent x s.current = true) : Sole s x old :=
  fun _ hy hcur => (hy (isCurrent_unique hcur h)).elim

theorem registered_current (hI : Inv s) {y : Uuid} (h : s.control = some (s.sender y)) : isCurrent y s.current = true := by
  obtain ⟨g, hg, hk⟩ := Option.bind_eq_some_iff.1 h
  have := hI.control g hg _ hk
  rw [hg]
  exact beq_iff_eq.2 this.symm

/-- **The replaced workspace loses the pointer**, or has lost it before, and is let go or told to close. -/
theorem Mode.replace {b : Bool} {c : Option Handle} (hM : Mode s) (hI : Inv s) {t : Task} {p : At} {old : Sender}
    (hpc : (s.att x).pc = .critical t p)
    (hp : p.onto = some old) {a : Attachment} (hg : a.generation = (s.att x).generation)
    (hq : ∀ k, a.pc.at k ≠ none → k = old) (hsole : Sole s x old)
    (hafter : ∀ y, y ≠ x → isCurrent y c = false) (ho : Owned c)
    (hgen : ∀ k, c.bind Handle.control = some k → s.control = some k ∨ k = s.sender x)
    (hown : Ok a (c.bind Handle.control = some (s.sender x)) (isCurrent x c = true) none (s.answered x))
    (hf : ∀ y reg, y ≠ x → s.sender y = old → (s.att y).pc.live = true → (s.att y).pc.holdsState = false →
      Flags (s.att y) reg (s.answered y) (some p) → Flags (s.att y) False (s.answered y) (a.pc.at old)) :
    Mode ({ s with checked := b, current := c }.put x a) := by
  refine hM.acted hI hpc (acted_put hI hpc hg rfl ⟨rfl, rfl, rfl, rfl⟩) hgen (fun k hk => Or.inl (by rw [hp, hq k hk]))
    hown fun y hy hfree hok => ?_
  have hreg : ¬ (c.bind Handle.control = some (s.sender y)) := by
    intro hr
    obtain ⟨g, hg', hk⟩ := Option.bind_eq_some_iff.1 hr
    have h1 := ho g hg' _ hk
    have h2 := hafter y hy
    rw [hg'] at h2
    simp [isCurrent, St.sender] at h1 h2
    exact h2 h1.symm
  have hcur : ¬ (isCurrent y c = true) := by simp [hafter y hy]
  rw [put_att_of_ne hy]
  show Ok (s.att y) (c.bind Handle.control = some (s.sender y)) (isCurrent y c = true) (a.pc.at (s.sender y)) (s.answered y)
  by_cases hk : s.sender y = old
  · have h1 : (Pc.critical t p).at (s.sender y) = some p := by simp [Pc.at, hp, hk]
    rw [h1] at hok
    refine hok.unregister hreg hcur fun hl hfl => ?_
    rw [eq_false hreg, hk]
    exact hf y _ hy hk hl hfree hfl
  · have h1 : (Pc.critical t p).at (s.sender y) = none := by simp [Pc.at, hp, Ne.symm hk]
    have h2 : a.pc.at (s.sender y) = none := by
      by_contra hne
      exact hk (hq _ hne)
    rw [h1] at hok
    rw [h2]
    exact hok.foreign (iff_of_false hreg fun hr => hk (hsole y hy (registered_current hI hr))) fun h => (hcur h).elim

/-- a workspace that is let go observes -/
theorem Demoted.settled (hd : a.Demoted) (hfree : a.pc.holdsState = false) : Flags a False ans none :=
  (ownFlags_of_plain (plain_of_not_holdsState hfree)).2
    ⟨fun h => h.elim, fun _ => Or.inl ⟨⟨hd.1, Or.inl hd.2.2⟩, hd.2.1⟩⟩

/-! ## Steps inside the blocks -/

theorem critical_at {t : Task} {p : At} (hp : p.onto = none) (k : Sender) : (Pc.critical t p).at k = none := by
  simp [Pc.at, hp]

/-- one's own move between settled places of a block that replaces nobody -/
theorem Mode.walk {b : Bool} (hM : Mode s) (hI : Inv s) {t : Task} {p q : At} (hpc : (s.att x).pc = .critical t p)
    (ht : t ≠ .enter)
    (hp : p.onto = none) (hq : q.onto = none) (hpl : (Pc.critical t p).plain = true) (hpl' : (Pc.critical t q).plain = true) :
    Mode ({ s with checked := b }.goto x (.critical t q)) :=
  hM.within hI hpc hp rfl (critical_at hq) (foreign_keep s x) (hM.own_alike hI hpc ht hpl hpl' rfl rfl rfl)

/-- leaving a block whose workspace is settled, or has given up the pointer -/
theorem Mode.quit {c : Option Handle} (hM : Mode s) (hI : Inv s) {t : Task} {p : At} (hpc : (s.att x).pc = .critical t p)
    (hp : p.onto = none) {a : Attachment} (hg : a.generation = (s.att x).generation) (hn : a.pc.holdsState = false)
    (hf : Foreign s x c) (hown : Ok a (c.bind Handle.control = some (s.sender x)) (isCurrent x c = true) none (s.answered x)) :
    Mode ({ s with current := c }.put x a) :=
  hM.within hI hpc hp hg (at_of_not_holdsState hn) hf hown

theorem exit_holdsState (a : Attachment) (e : Exit) : (a.exit e).pc.holdsState = false := (Pc.quiet_holds (quiet_exit a e)).2

theorem exit_generation (a : Attachment) (e : Exit) : (a.exit e).generation = a.generation := by
  cases e <;> simp only [Attachment.exit] <;> split_ifs <;> rfl

/-- after an exit: the loop of the workspace keeps what was settled, and a workspace that is left needs nothing more than
that a registered client is writable -/
theorem Ok.exit (ho : Ok a reg cur none ans) (hnl : a.pc.leaving = false) (hd : a.pc.isDemoting = false)
    (hro : reg → a.readOnly = false)
    (e : Exit) (hres : e = .resume → a.pc.live = true → a.pc.plain = true ∧ a.pc.entered = true)
    (hent : a.pc.live = false → a.pc.entered = false) : Ok (a.exit e) reg cur none ans := by
  cases hl : a.pc.live with
  | false =>
    have hreg : ¬ reg := fun hr => by
      rcases ho.client hr with h | h
      · simp [hent hl] at h
      · simp [hnl] at h
    obtain ⟨h1, h2, -⟩ := exit_idle hl e
    exact Ok.idle hreg h2 h1
  | true =>
    by_cases he : e = .resume
    · obtain ⟨hp, hen⟩ := hres he hl
      subst he
      have hex : a.exit .resume = { a with pc := .workspace } := by simp [Attachment.exit, hl]
      rw [hex]
      refine ho.alike ⟨rfl, rfl, hd, rfl⟩ hp rfl ?_ ?_ ?_
      · rw [hl]; rfl
      · rw [hen]; rfl
      · rw [hnl]; rfl
    · obtain ⟨h1, -, h3, -⟩ := exit_live hl he
      exact Ok.leave (fun hr _ => hro hr) h1 h3

theorem not_leaving_critical {t : Task} {p : At} (ht : ∀ c, t ≠ .leave c) : (Pc.critical t p).leaving = false := by
  cases t <;> first | rfl | exact (ht _ rfl).elim

theorem entered_of_live {t : Task} (p : At) (h : (Pc.critical t p).live = false) : (Pc.critical t p).entered = false := by
  cases t <;> first | rfl | simp [Pc.live, Task.inWorkspace] at h

/-- leaving a block from a settled place, the pointer untouched -/
theorem Mode.exitBlock (hM : Mode s) (hI : Inv s) {t : Task} {p : At} (hpc : (s.att x).pc = .critical t p)
    (ht : ∀ c, t ≠ .leave c) (hp : p.onto = none) (hpl : (Pc.critical t p).plain = true) {e : Exit}
    (he : e = .resume → t ≠ .enter) : Mode (s.exit x e) := by
  have ho := hM.own hI hpc
  have hplain : (s.att x).pc.plain = true := by rw [hpc]; exact hpl
  refine hM.quit hI hpc hp (exit_generation _ e) (exit_holdsState _ e) (foreign_keep s x) ?_
  refine ho.exit (by rw [hpc]; exact not_leaving_critical ht) (by rw [hpc]; rfl) (fun hr => ho.readOnly hplain hr rfl) e
    (fun hr hl => ⟨hplain, ?_⟩) (by rw [hpc]; exact entered_of_live p)
  rw [hpc] at hl ⊢
  rw [entered_critical (he hr)]
  exact hl

/-- leaving a block after giving up the pointer -/
theorem Mode.exitClear (hM : Mode s) (hI : Inv s) {t : Task} {p : At} (hpc : (s.att x).pc = .critical t p)
    (hp : p.onto = none) {e : Exit} (he : e ≠ .resume) :
    Mode ({ s with current := clearIfCurrent x s.current }.exit x e) := by
  have hcur : isCurrent x (clearIfCurrent x s.current) = false := isCurrent_clearIfCurrent_self _
  have hreg : ¬ ((clearIfCurrent x s.current).bind Handle.control = some (s.sender x)) := by
    intro hr
    obtain ⟨g, hg, hk⟩ := Option.bind_eq_some_iff.1 hr
    have hown := hI.control.clearIfCurrent g hg _ hk
    rw [hg] at hcur
    simp [isCurrent] at hcur
    exact hcur hown.symm
  refine hM.quit hI hpc hp (exit_generation _ e) (exit_holdsState _ e) (foreign_clearIfCurrent hI x) ?_
  cases hl : (s.att x).pc.live with
  | false =>
    obtain ⟨h1, h2, -⟩ := exit_idle hl e
    exact Ok.idle hreg h2 h1
  | true =>
    obtain ⟨h1, -, h3, -⟩ := exit_live hl he
    exact Ok.leave (fun hr => (hreg hr).elim) h1 h3

/-- a claim is given up with the pointer cleared -/
theorem Ok.gaveUp {t : Task} {old : Sender} {r : Option Reply} (hac : a.pc = .critical t (.closeOld old r)) {k : Sender} :
    Ok a ((none : Option Handle).bind Handle.control = some k) (isCurrent x none = true) none ans := by
  refine Ok.lost (by simp) (by simp [isCurrent]) fun _ => ?_
  simp [OwnFlags, hac]

/-- what the replaced workspace is like while its own claim-free successor sets flags and size -/
def At.letsGo : At → Bool
  | .setWriter .. | .wrote .. | .resize _ | .resized .. => true
  | _ => false

theorem flags_letsGo {p : At} (hp : p.letsGo = true) (hf : Flags a reg ans (some p)) : a.Demoted := by
  cases p <;> first | exact hf | simp [At.letsGo] at hp

/-- **Giving up** from such a place: `Close` to the former writer, if there is one, then the reply or the error. -/
theorem giveUp_mode (hM : Mode s) (hI : Inv s) {t : Task} {p : At} (hpc : (s.att x).pc = .critical t p)
    (hp : p.letsGo = true) (hsole : ∀ old, p.onto = some old → Sole s x old)
    (hnone : p.onto = none → isCurrent x s.current = true ∨ s.control = none) (r : Option Reply)
    {c : Option Handle} (hc : c = none) : Mode (giveUp { s with current := c } x t p.onto r) := by
  subst hc
  have hreg : ¬ ((none : Option Handle).bind Handle.control = some (s.sender x)) := by simp
  have hcur : ¬ (isCurrent x none = true) := by simp [isCurrent]
  cases ho : p.onto with
  | some old =>
    refine hM.replace hI hpc ho (a := { s.att x with pc := .critical t (.closeOld old r) }) rfl (fun k hk => ?_) (hsole old ho)
      (fun y _ => by simp [isCurrent]) owned_none (fun k hk => by simp at hk) ?_ fun y reg _ _ _ _ hf => ?_
    · exact (Option.some.inj (onto_of_at hk)).symm
    · exact Ok.lost hreg hcur fun _ => by simp [OwnFlags]
    · have : (Pc.critical t (At.closeOld old r)).at old = some (.closeOld old r) := by simp [Pc.at, At.onto]
      rw [this]
      exact Or.inr (flags_letsGo hp hf)
  | none =>
    have hf : Foreign s x none := foreign_none hI (hnone ho)
    cases r with
    | some r =>
      refine hM.within hI hpc ho (a := { s.att x with pc := .critical t (.reply r .chooser) }) rfl (critical_at rfl) hf
        (Ok.lost hreg hcur fun _ => ?_)
      simp [OwnFlags]
    | none =>
      refine hM.quit hI hpc ho (exit_generation _ _) (exit_holdsState _ _) hf ?_
      cases hl : (s.att x).pc.live with
      | false =>
        obtain ⟨h1, h2, -⟩ := exit_idle hl .close
        exact Ok.idle hreg h2 h1
      | true =>
        obtain ⟨h1, -, h3, -⟩ := exit_live (e := .close) hl (by simp)
        exact Ok.leave (fun hr => (hreg hr).elim) h1 h3

/-- **Going on** from such a place, as the writer. -/
theorem Mode.goOn {c : Option Handle} (hM : Mode s) (hI : Inv s) {t : Task} {p : At} (hpc : (s.att x).pc = .critical t p)
    (hp : p.letsGo = true) (hsole : ∀ old, p.onto = some old → Sole s x old)
    (hnone : p.onto = none → isCurrent x s.current = true ∨ s.control = none) {a : Attachment}
    (hg : a.generation = (s.att x).generation)
    (hq : (∀ k, a.pc.at k = none) ∨ ∃ q, q.letsGo = true ∧ q.onto = p.onto ∧ a.pc = .critical t q)
    (hcx : ∀ y, y ≠ x → isCurrent y c = false) (hok : Owned c)
    (hgen : ∀ k, c.bind Handle.control = some k → s.control = some k ∨ k = s.sender x)
    (hown : Ok a (c.bind Handle.control = some (s.sender x)) (isCurrent x c = true) none (s.answered x)) :
    Mode ({ s with current := c }.put x a) := by
  cases ho : p.onto with
  | some old =>
    refine hM.replace hI hpc ho hg (fun k hk => ?_) (hsole old ho) hcx hok hgen hown fun y reg _ _ _ hfree hf => ?_
    · rcases hq with hq | ⟨q, -, hqo, hac⟩
      · exact (hk (hq k)).elim
      · rw [hac] at hk
        exact Option.some.inj ((onto_of_at hk).symm.trans (hqo.trans ho))
    · have hd := flags_letsGo hp hf
      rcases hq with hq | ⟨q, hql, hqo, hac⟩
      · rw [hq]; exact Demoted.settled hd hfree
      · have : a.pc.at old = some q := by simp [hac, Pc.at, hqo, ho]
        rw [this]
        cases q <;> first | exact hd | simp [At.letsGo] at hql
  | none =>
    have hat : ∀ k, a.pc.at k = none := by
      rcases hq with hq | ⟨q, -, hqo, hac⟩
      · exact hq
      · intro k; rw [hac]; exact critical_at (hqo.trans ho) k
    refine hM.within hI hpc ho hg hat ?_ hown
    exact foreign_of_unregistered hI (hnone ho) hcx hok hgen

/-! ## The code under the mutexes -/

theorem not_registered_of_idle (hM : Mode s) (hI : Inv s) {t : Task} {p : At} (hpc : (s.att x).pc = .critical t p)
    (hl : t.inWorkspace = false) (hlv : ∀ c, t ≠ .leave c) : s.control ≠ some (s.sender x) := by
  intro hr
  rcases (hM.own hI hpc).client hr with h | h
  · rw [hpc, entered_of_live p hl] at h; cases h
  · rw [hpc, not_leaving_critical hlv] at h; cases h

/-- in a chooser nothing is asked, as long as no channel is registered for the attachment -/
theorem Mode.idle {b : Bool} {c : Option Handle} (hM : Mode s) (hI : Inv s) {t : Task} {p q : At}
    (hpc : (s.att x).pc = .critical t p) (hl : t.inWorkspace = false) (hp : p.onto = none) (hq : q.onto = none)
    (hf : Foreign s x c) (hreg : c.bind Handle.control ≠ some (s.sender x)) :
    Mode ({ s with checked := b, current := c }.goto x (.critical t q)) :=
  hM.within hI hpc hp rfl (critical_at hq) hf (Ok.idle hreg (entered_of_live q hl) hl)

/-- the claimant finds a registered channel: the workspace behind it is writable -/
theorem Mode.demoteSend {b : Bool} (hM : Mode s) (hI : Inv s) {t : Task} (hpc : (s.att x).pc = .critical t .start)
    (ht : t ≠ .enter) {old : Sender} (hold : s.control = some old) :
    Mode ({ s with checked := b }.goto x (.critical t (.demoteSend old))) := by
  refine hM.acted hI hpc (acted_put hI hpc (a := { s.att x with pc := .critical t (.demoteSend old) }) rfl rfl
    ⟨rfl, rfl, rfl, rfl⟩) (fun k hk => Or.inl hk) (fun k hk => Or.inr ?_) (hM.own_alike hI hpc ht rfl rfl rfl rfl rfl)
    fun y hy hfree ho => ?_
  · rw [hold]; exact onto_of_at hk
  · rw [St.goto, put_att_of_ne hy]
    show Ok (s.att y) (s.control = _) (isCurrent y s.current = true) ((Pc.critical t (.demoteSend old)).at _) (s.answered y)
    have h1 : (Pc.critical t At.start).at (s.sender y) = none := rfl
    rw [h1] at ho
    by_cases hk : old = s.sender y
    · have h2 : (Pc.critical t (At.demoteSend old)).at (s.sender y) = some (.demoteSend old) := at_of_onto (congrArg some hk)
      rw [h2]
      have hr : s.control = some (s.sender y) := by rw [hold, hk]
      exact ⟨ho.client, ho.known, fun hl => (settled_of_live ho (plain_of_not_holdsState hfree) hl).1 hr, fun _ h => by cases h⟩
    · have h2 : (Pc.critical t (At.demoteSend old)).at (s.sender y) = none := at_of_not_onto (by simpa [At.onto] using hk)
      rwa [h2]

theorem control_updateSize (x : Uuid) (size : ClientSize) :
    (updateSize x size s.current).bind Handle.control = s.control := by
  cases hc : s.current with
  | none => simp [updateSize, modifyCurrent, St.control, hc]
  | some g =>
    simp only [updateSize, modifyCurrent, St.control, hc, Option.map_some, Option.bind_some]
    split_ifs <;> rfl

/-- the registration of another attachment's client -/
example : (updateSize 1 ⟨80, 24⟩ (some ⟨2, ⟨10, 10⟩, some ⟨2, 3⟩⟩)).bind Handle.control = some ⟨2, 3⟩ := by decide +kernel

theorem start_claim_mode (hM : Mode s) (hI : Inv s) {takeover : Bool} {stamp : Stamp} {size : ClientSize}
    (hpc : (s.att x).pc = .critical (.claim takeover stamp size) .start) : Mode (start s x (.claim takeover stamp size)) := by
  have hreg := not_registered_of_idle hM hI hpc rfl (by simp)
  simp only [start]
  split_ifs with h1 h2 h3
  · exact hM.exitBlock hI hpc (by simp) rfl rfl (by simp)
  · have hf : Foreign s x (updateSize x size s.current) :=
      foreign_modify hI (f := fun g => { g with size := size }) (fun _ => rfl) fun _ => Or.inl rfl
    exact hM.idle hI hpc rfl rfl rfl hf fun hr => hreg (control_updateSize x size ▸ hr)
  · exact hM.walk hI hpc (by simp) rfl rfl rfl rfl
  · have hx : isCurrent x s.current = false := by simpa using h2
    cases hk : s.current.bind Handle.control with
    | some old =>
      exact hM.demoteSend hI hpc (by simp) hk
    | none =>
      exact hM.idle hI hpc rfl rfl rfl (foreign_set hI (Or.inr hk) size (Or.inl rfl)) (by simp)

theorem start_claimControl_mode (hM : Mode s) (hI : Inv s) {takeover : Bool} {stamp : Stamp} {size : ClientSize}
    (hpc : (s.att x).pc = .critical (.claimControl takeover stamp size) .start) :
    Mode (start s x (.claimControl takeover stamp size)) := by
  simp only [start]
  split_ifs with h1 h2 h3
  · exact hM.exitBlock hI hpc (by simp) rfl rfl (by simp)
  · exact hM.walk hI hpc (by simp) rfl rfl rfl rfl
  · -- the present writer claims again: its channel is registered already
    have ho := hM.own hI hpc
    have hr : s.control = some (s.sender x) := ho.known (by rw [hpc]; rfl) h3
    have hf : Foreign s x (setControl x (s.sender x) (updateSize x size s.current)) := by
      have : setControl x (s.sender x) (updateSize x size s.current) =
          modifyCurrent x (fun g => { g with size := size, control := some (s.sender x) }) s.current := by
        cases s.current with
        | none => rfl
        | some g => by_cases hg : g.attachment = x <;> simp [setControl, updateSize, modifyCurrent, hg]
      rw [this]
      exact foreign_modify hI (fun _ => rfl) fun _ => Or.inr (Or.inr rfl)
    have hreg : (setControl x (s.sender x) (updateSize x size s.current)).bind Handle.control = some (s.sender x) := by
      cases hc : s.current with
      | none => simp [hc, isCurrent] at h3
      | some g =>
        have hg : g.attachment = x := by simpa [hc, isCurrent] using h3
        simp [setControl, updateSize, modifyCurrent, hg]
    refine hM.within hI hpc rfl rfl (critical_at rfl) hf ?_
    refine Ok.won hreg rfl (fun _ => ?_) rfl
    have hs := settled_of_live ho (by rw [hpc]; rfl) (by rw [hpc]; rfl)
    have hw := hs.1 hr
    exact ⟨fun _ => ⟨⟨rfl, hw.1.2⟩, hw.2⟩, fun h => (h hreg).elim⟩
  · have hx : isCurrent x s.current = false := by simpa using h3
    cases hk : s.current.bind Handle.control with
    | some old => exact hM.demoteSend hI hpc (by simp) hk
    | none => exact hM.walk hI hpc (by simp) rfl rfl rfl rfl

theorem start_mode (hM : Mode s) (hI : Inv s) {t : Task} (hpc : (s.att x).pc = .critical t .start) : Mode (start s x t) := by
  cases t with
  | create stamp name =>
    simp only [start]
    split_ifs <;> exact hM.walk hI hpc (by simp) rfl rfl rfl rfl
  | claim => exact start_claim_mode hM hI hpc
  | enter =>
    have ho := hM.own hI hpc
    have hreg : s.control ≠ some (s.sender x) := fun hr => by
      rcases ho.client hr with h | h <;> simp [hpc, Pc.entered, Pc.leaving] at h
    have hs := settled_of_live ho (by rw [hpc]; rfl) (by rw [hpc]; rfl)
    simp only [start]
    split_ifs with hx
    · refine hM.within hI hpc rfl rfl (critical_at rfl) (foreign_keep s x) ?_
      exact ho.alike ⟨rfl, rfl, by rw [hpc]; rfl, rfl⟩ (by rw [hpc]; rfl) rfl (by rw [hpc]; rfl) (by rw [hpc]; rfl) (by rw [hpc]; rfl)
    · refine hM.within hI hpc rfl rfl (critical_at rfl) (foreign_keep s x) ?_
      have hab : Alike (s.att x) { s.att x with pc := .critical .enter .project } := ⟨rfl, rfl, by rw [hpc]; rfl, rfl⟩
      exact Ok.lost hreg hx fun _ => hab.settled hs
  | operate stamp op =>
    simp only [start]
    split_ifs
    · exact hM.walk hI hpc (by simp) rfl rfl rfl rfl
    · exact hM.exitBlock hI hpc (by simp) rfl rfl (by simp)
    · split <;> exact hM.walk hI hpc (by simp) rfl rfl rfl rfl
  | claimControl => exact start_claimControl_mode hM hI hpc
  | leave close =>
    have hf : Foreign s x (clearControl x s.current) :=
      foreign_modify hI (f := fun g => { g with control := none }) (fun _ => rfl) fun _ => Or.inr (Or.inl rfl)
    have hreg : (clearControl x s.current).bind Handle.control ≠ some (s.sender x) := by
      intro hr
      obtain ⟨g, hg, hk⟩ := Option.bind_eq_some_iff.1 hr
      have hown := hI.control.clearControl (x := x) g hg _ hk
      obtain ⟨g', hg', rfl⟩ := Option.map_eq_some_iff.1 hg
      by_cases hx : g'.attachment = x
      · simp [hx] at hk
      · rw [if_neg hx] at hown; exact hx hown.symm
    cases close with
    | true => exact hM.quit hI hpc rfl rfl rfl hf (Ok.idle hreg rfl rfl)
    | false => exact hM.quit hI hpc rfl rfl rfl hf (Ok.idle hreg rfl rfl)
  | release =>
    have hreg : (clearIfCurrent x s.current).bind Handle.control ≠ some (s.sender x) := by
      have hno := not_registered_of_idle hM hI hpc rfl (by simp)
      unfold clearIfCurrent
      split_ifs
      · simp
      · exact hno
    exact hM.quit hI hpc rfl rfl rfl (foreign_clearIfCurrent hI x) (Ok.idle hreg rfl rfl)

theorem deliver_att_self (s : St) (k : Sender) (d : Directive) : (s.deliver k d).att k.attachment = (s.att k.attachment).push d := by
  simp [St.deliver]

theorem deliver_att_of_ne {k : Sender} (h : y ≠ k.attachment) (d : Directive) : (s.deliver k d).att y = s.att y := by
  simp [St.deliver, h]

/-- a bystander -/
example : (((init 1).deliver ⟨2, 5⟩ .close).att 1).directives = ((init 1).att 1).directives := by decide +kernel

/-- the state after a step inside a block that sends a directive -/
theorem acted_send (hI : Inv s) {t : Task} {p : At} (hpc : (s.att x).pc = .critical t p)
    (hg : a.generation = (s.att x).generation) {k : Sender} (hk : k.attachment ≠ x) (d : Directive)
    (hans : s'.answered x = s.answered x) (hs : Same s s') : Acted s ((s'.put x a).deliver k d) x a := by
  have hA : Acted s (s'.put x a) x a := acted_put hI hpc hg hans hs
  refine ⟨by rw [deliver_att_of_ne (Ne.symm hk)]; exact hA.self, hg, fun y hy => ?_, hA.state, hans⟩
  by_cases hyk : y = k.attachment
  · subst hyk
    rw [deliver_att_self]
    exact hA.other _ hy
  · rw [deliver_att_of_ne hyk]
    exact hA.other y hy

/-- an open channel is that of the attachment's present workspace -/
theorem sender_of_isOpen {k : Sender} (h : s.isOpen k = true) : s.sender k.attachment = k ∧ (s.att k.attachment).pc.live = true := by
  simp only [St.isOpen, Bool.and_eq_true, decide_eq_true_eq] at h
  exact ⟨by simp [St.sender, h.2], h.1⟩

theorem demoteSend_mode (hM : Mode s) (hI : Inv s) {t : Task} {old : Sender}
    (hpc : (s.att x).pc = .critical t (.demoteSend old)) : Mode (proceed s x t (.demoteSend old)) := by
  obtain ⟨ht, -, hr⟩ := (hI.place hpc).2
  have hte : t ≠ .enter := by rintro rfl; simp [Task.claims] at ht
  have hown : ∀ q, (Pc.critical t q).plain = true → Ok { s.att x with pc := .critical t q } (s.control = some (s.sender x))
      (isCurrent x s.current = true) none (s.answered x) := fun q hq =>
    hM.own_alike hI hpc hte rfl hq rfl rfl rfl
  simp only [proceed]
  split_ifs with hblocked
  · -- an open channel of a writable workspace is not full
    refine hM.along hI hpc rfl rfl rfl (hown _ rfl) fun y reg hy hk hl hf => ?_
    have hk' : old = s.sender y := Option.some.inj hk
    have hopen : s.isOpen old = true := by simp [hk', St.isOpen, St.sender, hl]
    have hfull : s.isFull old = false := by
      rcases hf.1.2 with hd | hd <;> simp [hk', St.isFull, St.sender, hd, directiveCapacity]
    simp [hopen, hfull] at hblocked
  · have hopen : s.isOpen old = true := by
      by_contra hno
      simp [Bool.eq_false_iff.2 hno] at hblocked
    obtain ⟨hsend, hlive⟩ := sender_of_isOpen hopen
    have hne := hr.ne
    have hansx : ∀ y, y ≠ old.attachment → (s.oneshot old.attachment).answered y = s.answered y := fun y hy => by
      simp [St.oneshot, St.respond, hy]
    have hA : Acted s (((s.oneshot old.attachment).goto x (.critical t (.demoteWait old s.next))).deliver old (.demote s.next)) x
        { s.att x with pc := .critical t (.demoteWait old s.next) } := by
      refine acted_send (a := { s.att x with pc := .critical t (.demoteWait old s.next) }) hI hpc ?_ hne _ ?_ ?_
      · rfl
      · exact hansx x (Ne.symm hne)
      · exact ⟨rfl, rfl, rfl, rfl⟩
    refine hM.acted hI hpc hA (fun k hk => Or.inl hk) (fun k hk => Or.inl ?_) (hown _ rfl) fun y hy hfree ho => ?_
    · exact onto_of_at (t := t) (p := .demoteWait old s.next) hk
    by_cases hyk : y = old.attachment
    · subst hyk
      have h1 : (Pc.critical t (At.demoteSend old)).at (s.sender old.attachment) = some (.demoteSend old) :=
        at_of_onto (by rw [hsend]; rfl)
      have h2 : (Pc.critical t (At.demoteWait old s.next)).at (s.sender old.attachment) = some (.demoteWait old s.next) :=
        at_of_onto (by rw [hsend]; rfl)
      rw [h1] at ho
      show Ok _ _ _ ((Pc.critical t (At.demoteWait old s.next)).at (s.sender old.attachment)) _
      rw [h2, deliver_att_self, show ((s.oneshot old.attachment).goto x _).att old.attachment = s.att old.attachment by
        rw [St.goto, put_att_of_ne hne]; rfl]
      refine ⟨ho.client, ho.known, fun _ => ?_, fun hl => ?_⟩
      · obtain ⟨⟨hdem, hd⟩, hro⟩ := ho.live hlive
        refine ⟨Or.inl ⟨hro, Or.inl ⟨hdem, ?_⟩⟩, fun he => ?_⟩
        · rcases hd with hd | hd
          · left; simp [Attachment.push, hd]
          · right; simp [Attachment.push, hd]
        · simp [St.deliver, St.goto, St.put, St.oneshot, St.respond] at he
      · have : (s.att old.attachment).pc.live = false := hl
        rw [hlive] at this; cases this
    · have h1 : ∀ q : At, q.onto = some old → (Pc.critical t q).at (s.sender y) = none := fun q hq =>
        at_of_not_onto (by rw [hq]; intro e; exact hyk (congrArg Sender.attachment (Option.some.inj e)).symm)
      rw [h1 (.demoteSend old) rfl] at ho
      show Ok _ _ _ ((Pc.critical t (At.demoteWait old s.next)).at (s.sender y)) ((s.oneshot old.attachment).answered y)
      rw [h1 (.demoteWait old s.next) rfl, deliver_att_of_ne hyk, hansx y hyk,
        show ((s.oneshot old.attachment).goto x _).att y = s.att y by rw [St.goto, put_att_of_ne hy]; rfl]
      exact ho

theorem demoteWait_mode (hM : Mode s) (hI : Inv s) {t : Task} {old : Sender} {n : ℕ}
    (hpc : (s.att x).pc = .critical t (.demoteWait old n)) : Mode (proceed s x t (.demoteWait old n)) := by
  obtain ⟨ht, -, -⟩ := (hI.place hpc).2
  have hte : t ≠ .enter := by rintro rfl; simp [Task.claims] at ht
  refine hM.along hI hpc rfl rfl rfl (hM.own_alike hI hpc hte rfl rfl rfl rfl rfl) fun y reg hy hk hl hf => ?_
  have hk' : old = s.sender y := Option.some.inj hk
  obtain ⟨hp, hs⟩ := hf
  refine ⟨hp.imp (fun h => ⟨n, h⟩) id, fun he => hs ?_⟩
  have hy' : s.answered old.attachment n = s.answered y n := by rw [hk']; rfl
  rw [hy'] at he
  cases ha : s.answered y n with
  | none => simp [ha] at he
  | some o => simpa [ha] using he

theorem demoted_mode (hM : Mode s) (hI : Inv s) {t : Task} {old : Sender} {o : Outcome}
    (hpc : (s.att x).pc = .critical t (.demoted old o)) : Mode (proceed s x t (.demoted old o)) := by
  obtain ⟨ht, -, hr⟩ := (hI.place hpc).2
  have hclose : ∀ r, Mode ({ s with current := none }.goto x (.critical t (.closeOld old r))) := by
    intro r
    refine hM.replace hI hpc rfl rfl (fun k hk => (Option.some.inj (onto_of_at hk)).symm) (hM.sole hr)
      (fun y _ => by simp [isCurrent]) owned_none (fun k hk => by simp at hk) (Ok.gaveUp rfl)
      fun y reg _ _ _ _ hf => ?_
    have : (Pc.critical t (At.closeOld old r)).at old = some (.closeOld old r) := at_of_onto rfl
    rw [this]
    exact hf.1
  simp only [proceed]
  split_ifs with h1 h2
  · exact hclose none
  · exact hclose _
  · have ho : o = .succeeded := by simpa using h2
    cases t with
    | claim takeover stamp size =>
      refine hM.replace hI hpc rfl rfl (fun k hk => (hk (critical_at rfl k)).elim) (hM.sole hr)
        (fun y hy => by simpa [isCurrent] using Ne.symm hy) (owned_some_none x size) (fun k hk => by simp at hk)
        (Ok.idle (by simp) rfl rfl) fun y reg _ _ _ hfree hf => ?_
      exact Demoted.settled (hf.2 ho) hfree
    | claimControl =>
      exact hM.along hI hpc rfl rfl rfl (hM.own_alike hI hpc (by simp) rfl rfl rfl rfl rfl) fun y reg _ _ _ hf => hf.2 ho
    | _ => simp [Task.claims] at ht

theorem afterClose_own (hc : s.current = none) (x : Uuid) (t : Task) (ht : t.claims = true) (r : Option Reply)
    (ans : ℕ → Option Outcome) :
    ∃ a, afterClose s x t r = s.put x a ∧ a.generation = (s.att x).generation ∧ (∀ k, a.pc.at k = none) ∧
      Ok a (s.control = some (s.sender x)) (isCurrent x s.current = true) none ans := by
  have hreg : ¬ (s.control = some (s.sender x)) := by simp [St.control, hc]
  have hcur : ¬ (isCurrent x s.current = true) := by simp [hc, isCurrent]
  cases r with
  | none =>
    refine ⟨_, rfl, exit_generation _ _, at_of_not_holdsState (exit_holdsState _ _), ?_⟩
    cases hl : (s.att x).pc.live with
    | false =>
      obtain ⟨h1, h2, -⟩ := exit_idle hl .close
      exact Ok.idle hreg h2 h1
    | true =>
      obtain ⟨h1, -, h3, -⟩ := exit_live (e := .close) hl (by simp)
      exact Ok.leave (fun hr => (hreg hr).elim) h1 h3
  | some r =>
    cases t with
    | claim => exact ⟨_, rfl, rfl, critical_at rfl, Ok.idle hreg rfl rfl⟩
    | claimControl => exact ⟨_, rfl, rfl, critical_at rfl, Ok.lost hreg hcur fun _ => hreg⟩
    | _ => simp [Task.claims] at ht

theorem closeOld_mode (hM : Mode s) (hI : Inv s) {t : Task} {old : Sender} {r : Option Reply}
    (hpc : (s.att x).pc = .critical t (.closeOld old r)) : Mode (proceed s x t (.closeOld old r)) := by
  obtain ⟨ht, hc, hne, -⟩ := (hI.place hpc).2
  obtain ⟨a, hput, hg, hat, hown⟩ := afterClose_own hc x t ht r (s.answered x)
  have hnobody : ∀ y, isCurrent y s.current = false := fun y => by simp [hc, isCurrent]
  simp only [proceed, hput]
  split_ifs with h1 h2
  · refine hM.replace hI hpc rfl hg (fun k hk => (hk (hat k)).elim) (fun y _ h => by simp [hnobody] at h)
      (fun y _ => hnobody y) hI.control (fun k hk => Or.inl hk) hown fun y reg _ hk hl _ _ => ?_
    have hopen : s.isOpen old = true := by simp [← hk, St.isOpen, St.sender, hl]
    simp [hopen] at h1
  · exact hM
  · have hopen : s.isOpen old = true := by simpa using h1
    obtain ⟨hsend, hlive⟩ := sender_of_isOpen hopen
    refine hM.acted hI hpc (acted_send hI hpc hg hne .close rfl ⟨rfl, rfl, rfl, rfl⟩) (fun k hk => Or.inl hk) (fun k hk => (hk (hat k)).elim) hown
      fun y hy hfree ho => ?_
    have hreg : ¬ (s.control = some (s.sender y)) := by simp [St.control, hc]
    have hcur : ¬ (isCurrent y s.current = true) := by simp [hnobody]
    show Ok _ (s.control = some (s.sender y)) (isCurrent y s.current = true) _ (s.answered y)
    rw [hat]
    by_cases hyk : y = old.attachment
    · subst hyk
      have h3 : (Pc.critical t (At.closeOld old r)).at (s.sender old.attachment) = some (.closeOld old r) :=
        at_of_onto (by rw [hsend]; rfl)
      rw [h3] at ho
      rw [deliver_att_self, put_att_of_ne hne]
      refine ⟨fun h => (hreg h).elim, fun _ h => (hcur h).elim, fun _ => ?_, fun _ _ h => (hreg h).elim⟩
      have hplain : ((s.att old.attachment).push .close).pc.plain = true := plain_of_not_holdsState hfree
      refine (ownFlags_of_plain hplain).2 ⟨fun h => (hreg h).elim, fun _ => ?_⟩
      rcases ho.live hlive with ⟨n, hro, ⟨hdem, hd | hd⟩ | ⟨⟨b, hb⟩, hd⟩⟩ | ⟨hdem, hro, hd⟩
      · exact Or.inr ⟨hro, Or.inl ⟨hdem, n, Or.inl (by simp [Attachment.push, hd])⟩⟩
      · exact Or.inr ⟨hro, Or.inl ⟨hdem, n, Or.inr (by simp [Attachment.push, hd])⟩⟩
      · exact Or.inr ⟨hro, Or.inr ⟨by simp [Attachment.push, hb, Pc.isDemoting], by simp [Attachment.push, hd]⟩⟩
      · exact Or.inl ⟨⟨hdem, Or.inr (by simp [Attachment.push, hd])⟩, hro⟩
    · have h3 : (Pc.critical t (At.closeOld old r)).at (s.sender y) = none :=
        at_of_not_onto fun e => hyk (congrArg Sender.attachment (Option.some.inj e)).symm
      rw [h3] at ho
      rw [deliver_att_of_ne hyk, put_att_of_ne hy]
      exact ho

/-- the two places at which the claimant's own flag or size has been set -/
theorem wrote_mode (hM : Mode s) (hI : Inv s) {t : Task} {old : Option Sender} {o : Outcome}
    (hpc : (s.att x).pc = .critical t (.wrote old o)) : Mode (proceed s x t (.wrote old o)) := by
  have hf := (hI.place hpc).2
  have ho := hM.own hI hpc
  -- the client has been toggled to writable
  have hw : o = .succeeded → t.inWorkspace = true → (s.att x).Writable := by
    rintro rfl hl
    have := ho.live (by rw [hpc]; exact hl)
    simpa [Flags, OwnFlags, hpc] using this
  cases t with
  | enter =>
    obtain ⟨rfl, hcur⟩ : old = none ∧ isCurrent x s.current = true := by
      cases old with
      | none => exact ⟨rfl, hf.2.2.1 rfl⟩
      | some => exact (hf.2.1 rfl).elim
    simp only [proceed]
    by_cases h1 : o = .succeeded
    · rw [if_neg (by simpa using h1)]
      have hfor : Foreign s x (setControl x (s.sender x) s.current) :=
        foreign_modify hI (f := fun g => { g with control := some (s.sender x) }) (fun _ => rfl) fun _ => Or.inr (Or.inr rfl)
      have hreg : (setControl x (s.sender x) s.current).bind Handle.control = some (s.sender x) := by
        cases hc : s.current with
        | none => simp [hc, isCurrent] at hcur
        | some g =>
          have hg : g.attachment = x := by simpa [hc, isCurrent] using hcur
          simp [setControl, modifyCurrent, hg]
      have hwr := hw h1 rfl
      split_ifs
      · refine hM.within hI hpc rfl rfl (critical_at rfl) hfor (Ok.won hreg rfl (fun _ => ?_) rfl)
        exact ⟨fun _ => ⟨⟨rfl, hwr.1.2⟩, hwr.2⟩, fun h => (h hreg).elim⟩
      · refine hM.within hI hpc rfl rfl (critical_at rfl) hfor (Ok.won hreg rfl (fun _ => ?_) rfl)
        exact ⟨fun _ => ⟨⟨rfl, hwr.1.2⟩, hwr.2⟩, fun h => (h hreg).elim⟩
    · rw [if_pos (by simpa using h1)]
      exact hM.exitClear hI hpc rfl (by simp)
  | claimControl takeover stamp size =>
    have hsole : ∀ k, (At.wrote old o).onto = some k → Sole s x k := by
      rintro k hk
      obtain rfl : old = some k := hk
      exact hM.sole hf.2.2.2
    have hnone : (At.wrote old o).onto = none → isCurrent x s.current = true ∨ s.control = none := by
      intro hk
      obtain rfl : old = none := hk
      exact Or.inr (hf.2.2.2 (by simp)).2
    simp only [proceed]
    split_ifs with h1 h2
    · exact giveUp_mode hM hI hpc rfl hsole hnone none rfl
    · exact giveUp_mode hM hI hpc rfl hsole hnone _ rfl
    · have hwr := hw (by simpa using h2) rfl
      refine hM.goOn hI hpc rfl hsole hnone rfl (Or.inr ⟨.resize old, rfl, rfl, rfl⟩)
        (fun y hy => by simpa [isCurrent] using Ne.symm hy) (owned_some_sender s x size)
        (fun k hk => Or.inr (by simpa [St.control] using hk.symm)) (Ok.won (by simp) rfl (fun _ => ?_) rfl)
      exact ⟨fun _ => ⟨⟨rfl, hwr.1.2⟩, hwr.2⟩, fun h => (h (by simp)).elim⟩
  | _ => exact hM

theorem resized_mode (hM : Mode s) (hI : Inv s) {t : Task} {old : Option Sender} {o : Outcome}
    (hpc : (s.att x).pc = .critical t (.resized old o)) : Mode (proceed s x t (.resized old o)) := by
  obtain ⟨-, -, hcur, hne⟩ := (hI.place hpc).2
  cases t with
  | enter =>
    obtain rfl : old = none := by
      cases old with
      | none => rfl
      | some k => exact ((hne k rfl).2 rfl).elim
    simp only [proceed]
    split_ifs
    · exact hM.exitClear hI hpc rfl (by simp)
    · refine hM.within hI hpc rfl rfl (critical_at rfl) (foreign_keep s x) ?_
      exact (hM.own hI hpc).alike ⟨rfl, rfl, by rw [hpc]; rfl, rfl⟩ (by rw [hpc]; rfl) rfl (by rw [hpc]; rfl) (by rw [hpc]; rfl)
        (by rw [hpc]; rfl)
  | claimControl takeover stamp size =>
    have hsole : ∀ k, (At.resized old o).onto = some k → Sole s x k := fun k _ => sole_of_isCurrent hcur
    simp only [proceed]
    split_ifs
    · exact giveUp_mode hM hI hpc rfl hsole (fun _ => Or.inl hcur) none (clearIfCurrent_eq_none hcur)
    · exact giveUp_mode hM hI hpc rfl hsole (fun _ => Or.inl hcur) _ (clearIfCurrent_eq_none hcur)
    · refine hM.goOn hI hpc rfl hsole (fun _ => Or.inl hcur) rfl (Or.inl (critical_at rfl))
        (fun y hy => Bool.eq_false_iff.2 fun h => hy (isCurrent_unique h hcur)) hI.control (fun k hk => Or.inl hk) ?_
      exact hM.own_alike hI hpc (by simp) rfl rfl rfl rfl rfl
  | _ => exact hM

end OwlMux.Writer
