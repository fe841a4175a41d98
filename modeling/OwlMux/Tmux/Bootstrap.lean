/-
The bootstrap text of a pane, read by a terminal (`Lib/Terminal.lean`). `capture_lines` writes a program for it: reset, the
alternate screen, the captured rows, the scroll region, origin mode, the cursor and the other modes, in this order. The order
matters: a full row leaves a wrap pending, setting the region moves the cursor home, and origin mode changes what the cursor
address means.

Results:
- `fromUtf8_utf8`: the bytes are the text the terminal reads;
- `prologue_run`, `epilogue_run`: what stands before and after the rows;
- `bootstrap_replay`: the terminal ends with the captured rows, the cursor, the region and every mode of the pane, from
  every state it was in before.
-/
import Mathlib.Data.Bool.AllAny
import Mathlib.Tactic
import OwlMux.Lib.Terminal
import OwlMux.Tmux.Result

namespace OwlMux.Tmux

open OwlMux.Relay (Text byteLen)
open OwlMux.Terminal

/-! ## Bytes and characters -/

def utf8 (t : Text) : Bytes := t.flatMap String.utf8EncodeChar

theorem utf8_append (a b : Text) : utf8 (a ++ b) = utf8 a ++ utf8 b := List.flatMap_append

theorem scalar_toNat (c : Char) : scalar c.toNat = some c := by
  have hv : c.toNat.isValidChar := c.valid
  rw [scalar, dif_pos hv]
  rfl

/-- one to four bytes, by the first of them -/
theorem fromUtf8_one {a : UInt8} (h : a.toNat < 0x80) (rest : Bytes) :
    fromUtf8 (a :: rest) = (fromUtf8 rest).map (Char.ofNat a.toNat :: ·) := by
  have h1 : a < 0x80 := h
  rw [fromUtf8.eq_def]
  simp only [h1, if_true]
  cases fromUtf8 rest <;> rfl

theorem fromUtf8_two {a b : UInt8} (h : 0xC2 ≤ a.toNat ∧ a.toNat < 0xE0) {c : Char} (hc : decode2 a b = some c) (rest : Bytes) :
    fromUtf8 (a :: b :: rest) = (fromUtf8 rest).map (c :: ·) := by
  have h1 : ¬ a < 0x80 := fun hlt => by
    have : a.toNat < 0x80 := hlt
    omega
  have h2 : 0xC2 ≤ a ∧ a < 0xE0 := h
  rw [fromUtf8.eq_def]
  simp only [h1, if_false, h2.1, h2.2, decide_true, Bool.and_self, if_true, hc]
  cases fromUtf8 rest <;> rfl

theorem fromUtf8_three {a b d : UInt8} (h : 0xE0 ≤ a.toNat ∧ a.toNat < 0xF0) {c : Char} (hc : decode3 a b d = some c)
    (rest : Bytes) : fromUtf8 (a :: b :: d :: rest) = (fromUtf8 rest).map (c :: ·) := by
  have h1 : ¬ a < 0x80 := fun hlt => by
    have : a.toNat < 0x80 := hlt
    omega
  have h2 : ¬ a < 0xE0 := fun hlt => by
    have : a.toNat < 0xE0 := hlt
    omega
  have h3 : 0xE0 ≤ a ∧ a < 0xF0 := h
  rw [fromUtf8.eq_def]
  simp only [h1, if_false, h2, decide_false, Bool.and_false, Bool.false_eq_true, h3.1, h3.2, decide_true, Bool.and_self, if_true,
    hc]
  cases fromUtf8 rest <;> rfl

theorem fromUtf8_four {a b d e : UInt8} (h : 0xF0 ≤ a.toNat ∧ a.toNat < 0xF5) {c : Char} (hc : decode4 a b d e = some c)
    (rest : Bytes) : fromUtf8 (a :: b :: d :: e :: rest) = (fromUtf8 rest).map (c :: ·) := by
  have h1 : ¬ a < 0x80 := fun hlt => by
    have : a.toNat < 0x80 := hlt
    omega
  have h2 : ¬ a < 0xE0 := fun hlt => by
    have : a.toNat < 0xE0 := hlt
    omega
  have h3 : ¬ a < 0xF0 := fun hlt => by
    have : a.toNat < 0xF0 := hlt
    omega
  have h4 : 0xF0 ≤ a ∧ a < 0xF5 := h
  rw [fromUtf8.eq_def]
  simp only [h1, if_false, h2, h3, decide_false, Bool.and_false, Bool.false_eq_true, h4.1, h4.2, decide_true, Bool.and_self,
    if_true, hc]
  cases fromUtf8 rest <;> rfl

theorem toNat_ofNat_byte {n : ℕ} (h : n < 256) : (UInt8.ofNat n).toNat = n := by
  rw [UInt8.toNat_ofNat']
  omega

theorem isContinuation_ofNat {n : ℕ} (h : n < 64) : isContinuation (UInt8.ofNat (n + 128)) = true := by
  have key : ∀ m : Fin 64, isContinuation (UInt8.ofNat (m.val + 128)) = true := by decide
  exact key ⟨n, h⟩

/-- a character is read back -/
theorem fromUtf8_char (c : Char) (rest : Bytes) :
    fromUtf8 (String.utf8EncodeChar c ++ rest) = (fromUtf8 rest).map (c :: ·) := by
  have hmax : c.toNat < 0x110000 := by
    have hv := c.valid
    simp only [UInt32.isValidChar, Nat.isValidChar] at hv
    show c.val.toNat < _
    omega
  have hnat : c.val.toNat = c.toNat := rfl
  unfold String.utf8EncodeChar
  simp only [hnat]
  split_ifs with h1 h2 h3
  · have hb : (UInt8.ofNat c.toNat).toNat = c.toNat := toNat_ofNat_byte (by omega)
    rw [List.singleton_append, fromUtf8_one (by omega), hb, Char.ofNat_toNat]
  · have ha : (UInt8.ofNat (c.toNat / 64 % 32 + 192)).toNat = c.toNat / 64 % 32 + 192 := toNat_ofNat_byte (by omega)
    have hb : (UInt8.ofNat (c.toNat % 64 + 128)).toNat = c.toNat % 64 + 128 := toNat_ofNat_byte (by omega)
    refine fromUtf8_two (by omega) ?_ rest
    have hn : (c.toNat / 64 % 32 + 192) % 32 * 64 + (c.toNat % 64 + 128) % 64 = c.toNat := by omega
    rw [decode2, isContinuation_ofNat (Nat.mod_lt _ (by omega)), if_pos rfl, ha, hb, hn, scalar_toNat]
  · have ha : (UInt8.ofNat (c.toNat / 4096 % 16 + 224)).toNat = c.toNat / 4096 % 16 + 224 := toNat_ofNat_byte (by omega)
    have hb : (UInt8.ofNat (c.toNat / 64 % 64 + 128)).toNat = c.toNat / 64 % 64 + 128 := toNat_ofNat_byte (by omega)
    have hd : (UInt8.ofNat (c.toNat % 64 + 128)).toNat = c.toNat % 64 + 128 := toNat_ofNat_byte (by omega)
    refine fromUtf8_three (by omega) ?_ rest
    have hn : (c.toNat / 4096 % 16 + 224) % 16 * 4096 + (c.toNat / 64 % 64 + 128) % 64 * 64 + (c.toNat % 64 + 128) % 64 = c.toNat := by
      omega
    simp only [decode3, isContinuation_ofNat (Nat.mod_lt (c.toNat / 64) (show 0 < 64 by omega)),
      isContinuation_ofNat (Nat.mod_lt c.toNat (show 0 < 64 by omega)), ha, hb, hd, hn, Bool.true_and, decide_eq_true_eq]
    rw [if_pos (by omega), scalar_toNat]
  · have ha : (UInt8.ofNat (c.toNat / 262144 % 8 + 240)).toNat = c.toNat / 262144 % 8 + 240 := toNat_ofNat_byte (by omega)
    have hb : (UInt8.ofNat (c.toNat / 4096 % 64 + 128)).toNat = c.toNat / 4096 % 64 + 128 := toNat_ofNat_byte (by omega)
    have hd : (UInt8.ofNat (c.toNat / 64 % 64 + 128)).toNat = c.toNat / 64 % 64 + 128 := toNat_ofNat_byte (by omega)
    have he : (UInt8.ofNat (c.toNat % 64 + 128)).toNat = c.toNat % 64 + 128 := toNat_ofNat_byte (by omega)
    refine fromUtf8_four (by omega) ?_ rest
    have hn : (c.toNat / 262144 % 8 + 240) % 8 * 262144 + (c.toNat / 4096 % 64 + 128) % 64 * 4096 +
        (c.toNat / 64 % 64 + 128) % 64 * 64 + (c.toNat % 64 + 128) % 64 = c.toNat := by omega
    simp only [decode4, isContinuation_ofNat (Nat.mod_lt (c.toNat / 4096) (show 0 < 64 by omega)),
      isContinuation_ofNat (Nat.mod_lt (c.toNat / 64) (show 0 < 64 by omega)),
      isContinuation_ofNat (Nat.mod_lt c.toNat (show 0 < 64 by omega)), ha, hb, hd, he, hn, Bool.true_and, decide_eq_true_eq]
    rw [if_pos (by omega), scalar_toNat]

/-- **The bytes of a text** are read back. -/
theorem fromUtf8_utf8 (t : Text) : fromUtf8 (utf8 t) = some t := by
  induction t with
  | nil => rfl
  | cons c t ih =>
    rw [utf8, List.flatMap_cons, fromUtf8_char]
    show (fromUtf8 (utf8 t)).map (c :: ·) = some (c :: t)
    rw [ih]
    rfl

theorem utf8_ascii {t : Text} (h : ∀ c ∈ t, c.toNat < 128) : utf8 t = t.map fun c => UInt8.ofNat c.toNat := by
  induction t with
  | nil => rfl
  | cons c t ih =>
    have hc := h c List.mem_cons_self
    have hone : String.utf8EncodeChar c = [UInt8.ofNat c.toNat] := by
      unfold String.utf8EncodeChar
      exact if_pos (by show c.toNat ≤ 127; omega)
    rw [utf8, List.flatMap_cons, hone, List.map_cons, List.singleton_append]
    exact congrArg _ (ih fun d hd => h d (List.mem_cons_of_mem _ hd))

theorem utf8_decimal (n : ℕ) : utf8 (Nat.toDigits 10 n) = decimal n := by
  refine utf8_ascii fun c hc => ?_
  have := (collected_toDigits c hc).1.2
  omega

/-! ## The text of the bootstrap -/

/-- a control sequence -/
def sequence (ps : Text) (final : Char) : Text := '\x1b' :: '[' :: (ps ++ [final])

def prologueText (t : PaneTerminalState) : Text :=
  ['\x1b', 'c'] ++ ((if t.hasMode modeAlternate then sequence "?1049".toList 'h' else []) ++
    (sequence "?25".toList 'l' ++ (sequence "?6".toList 'l' ++ (sequence [] 'H' ++ sequence ['2'] 'J'))))

/-- set or reset -/
def switch (on : Bool) : Char := if on then 'h' else 'l'

def epilogueText (t : PaneTerminalState) : Text :=
  sequence (Nat.toDigits 10 (t.scrollUpper + 1) ++ ';' :: Nat.toDigits 10 (t.scrollLower + 1)) 'r' ++
    (sequence "?6".toList (switch (t.hasMode modeOrigin)) ++
      (sequence (Nat.toDigits 10 (cursorRow t) ++ ';' :: Nat.toDigits 10 (t.cursorX + 1)) 'H' ++
        (sequence ['4'] (switch (t.hasMode modeInsert)) ++ (sequence "?7".toList (switch (t.hasMode modeWrap)) ++
          (sequence "?1".toList (switch (t.hasMode modeApplicationCursor)) ++
            (['\x1b', if t.hasMode modeApplicationKeypad then '=' else '>'] ++
              sequence "?25".toList (switch (t.hasMode modeCursorVisible))))))))

theorem utf8_prologue (t : PaneTerminalState) : utf8 (prologueText t) = capturePrologue t := by
  unfold prologueText capturePrologue
  cases t.hasMode modeAlternate <;> decide

theorem utf8_sequence_pair (a b : ℕ) {final : Char} (hf : final.toNat < 128) :
    utf8 (sequence (Nat.toDigits 10 a ++ ';' :: Nat.toDigits 10 b) final) =
      [escape, 91] ++ decimal a ++ [59] ++ decimal b ++ [UInt8.ofNat final.toNat] := by
  have hfinal : utf8 [final] = [UInt8.ofNat final.toNat] := utf8_ascii (by simpa using hf)
  have happ : sequence (Nat.toDigits 10 a ++ ';' :: Nat.toDigits 10 b) final =
      ['\x1b', '['] ++ Nat.toDigits 10 a ++ [';'] ++ Nat.toDigits 10 b ++ [final] := by simp [sequence]
  rw [happ, utf8_append, utf8_append, utf8_append, utf8_append, utf8_decimal, utf8_decimal, hfinal]
  rfl

theorem utf8_switch (on : Bool) :
    utf8 (sequence "?6".toList (switch on)) = (if on then csi "?6h" else csi "?6l") ∧
    utf8 (sequence ['4'] (switch on)) = appendMode on (csi "4h") (csi "4l") ∧
    utf8 (sequence "?7".toList (switch on)) = appendMode on (csi "?7h") (csi "?7l") ∧
    utf8 (sequence "?1".toList (switch on)) = appendMode on (csi "?1h") (csi "?1l") ∧
    utf8 ['\x1b', if on then '=' else '>'] = appendMode on [escape, 61] [escape, 62] ∧
    utf8 (sequence "?25".toList (switch on)) = appendMode on (csi "?25h") (csi "?25l") := by
  cases on <;> decide

theorem utf8_epilogue (t : PaneTerminalState) : utf8 (epilogueText t) = captureEpilogue t := by
  rw [epilogueText, captureEpilogue, utf8_append, utf8_append, utf8_append, utf8_append, utf8_append, utf8_append, utf8_append,
    utf8_sequence_pair _ _ (by decide), utf8_sequence_pair _ _ (by decide), (utf8_switch _).1, (utf8_switch _).2.1,
    (utf8_switch _).2.2.1, (utf8_switch _).2.2.2.1, (utf8_switch _).2.2.2.2.1, (utf8_switch _).2.2.2.2.2]
  simp only [List.append_assoc]
  rfl

/-- the bytes of a captured row -/
def rowBytes (row : List Terminal.Piece) : Bytes := utf8 (row.flatMap Terminal.Piece.text)

/-- the loop of `capture_lines` joins the rows -/
theorem captureRows_ok {rows : List (List Terminal.Piece)} {content bytes : Bytes} :
    (captureRows content true (rows.map rowBytes) = .ok bytes → bytes = content ++ utf8 (rowsText rows)) ∧
      (rows ≠ [] → captureRows content false (rows.map rowBytes) = .ok bytes →
        bytes = content ++ [13, 10] ++ utf8 (rowsText rows)) := by
  induction rows generalizing content bytes with
  | nil =>
    refine ⟨fun h => ?_, fun h => (h rfl).elim⟩
    cases h
    exact (List.append_nil _).symm
  | cons row rows ih =>
    have hrest : ∀ {content bytes : Bytes}, captureRows (content ++ rowBytes row) false (rows.map rowBytes) = .ok bytes →
        bytes = content ++ utf8 (rowsText (row :: rows)) := by
      intro content bytes h
      cases rows with
      | nil =>
        cases h
        rfl
      | cons next rows =>
        have hnext := ih.2 (by simp) h
        rw [hnext, rowsText, utf8_append, utf8_append, rowBytes]
        simp only [List.append_assoc]
        rfl
    constructor
    · intro h
      obtain ⟨u, -, h⟩ := parsed_bind.1 h
      exact hrest h
    · intro _ h
      obtain ⟨u, -, h⟩ := parsed_bind.1 h
      exact hrest h

theorem captureLines_text {rows : List (List Terminal.Piece)} {pane : PaneProjection} {bytes : Bytes}
    (h : captureLines (rows.map rowBytes) pane = .ok bytes) :
    bytes = utf8 (prologueText pane.terminal ++ (rowsText rows ++ epilogueText pane.terminal)) := by
  obtain ⟨content, h1, h⟩ := parsed_bind.1 h
  obtain ⟨u, -, h⟩ := parsed_bind.1 h
  cases h
  rw [captureRows_ok.1 h1, utf8_append, utf8_append, utf8_prologue, utf8_epilogue, List.append_assoc]

/-! ## What the terminal does with it -/

variable {π : Type} {P : Pens π} {width height : ℕ}

variable {t : Term π}

theorem feed_visible (on : Bool) :
    t.feed P width height (sequence "?25".toList (switch on)) = { t with parser := .ground, cursorVisible := on } := by
  cases on <;> exact feed_csi (List.all_iff_forall_prop.1 (by decide)) (by decide)

theorem feed_origin (on : Bool) :
    t.feed P width height (sequence "?6".toList (switch on)) = ({ t with parser := .ground, origin := on } : Term π).home := by
  cases on <;> exact feed_csi (List.all_iff_forall_prop.1 (by decide)) (by decide)

theorem feed_insert (on : Bool) :
    t.feed P width height (sequence ['4'] (switch on)) = { t with parser := .ground, insert := on } := by
  cases on <;> exact feed_csi (List.all_iff_forall_prop.1 (by decide)) (by decide)

theorem feed_wrap (on : Bool) :
    t.feed P width height (sequence "?7".toList (switch on)) = { t with parser := .ground, autowrap := on } := by
  cases on <;> exact feed_csi (List.all_iff_forall_prop.1 (by decide)) (by decide)

theorem feed_cursorKeys (on : Bool) :
    t.feed P width height (sequence "?1".toList (switch on)) = { t with parser := .ground, applicationCursor := on } := by
  cases on <;> exact feed_csi (List.all_iff_forall_prop.1 (by decide)) (by decide)

theorem feed_alternate : t.feed P width height (sequence "?1049".toList 'h') =
    { t with
      parser := .ground
      saved := (t.row, t.col, t.pen)
      alternate := true
      alternateScreen := fun _ _ => blank P
      pendingWrap := false } := feed_csi (List.all_iff_forall_prop.1 (by decide)) (by decide)

theorem feed_home : t.feed P width height (sequence [] 'H') =
    ({ t with parser := .ground } : Term π).cursorPosition width height [0] := feed_csi (List.all_iff_forall_prop.1 (by decide)) (by decide)

theorem feed_erase : t.feed P width height (sequence ['2'] 'J') =
    ({ t with parser := .ground } : Term π).setScreen fun _ _ => ⟨' ', t.pen⟩ := feed_csi (List.all_iff_forall_prop.1 (by decide)) (by decide)

theorem collected_pair (a b : ℕ) : ∀ c ∈ Nat.toDigits 10 a ++ ';' :: Nat.toDigits 10 b, Collected c := by
  intro c hc
  rcases List.mem_append.1 hc with hc | hc
  · exact (collected_toDigits c hc).1
  · rcases List.mem_cons.1 hc with rfl | hc
    · decide
    · exact (collected_toDigits c hc).1

theorem feed_region (a b : ℕ) : t.feed P width height (sequence (Nat.toDigits 10 a ++ ';' :: Nat.toDigits 10 b) 'r') =
    ({ t with parser := .ground } : Term π).scrollRegion height [a, b] := by
  rw [← params_pair]
  exact feed_csi (collected_pair a b) (by decide)

theorem feed_cursor (a b : ℕ) : t.feed P width height (sequence (Nat.toDigits 10 a ++ ';' :: Nat.toDigits 10 b) 'H') =
    ({ t with parser := .ground } : Term π).cursorPosition width height [a, b] := by
  rw [← params_pair]
  exact feed_csi (collected_pair a b) (by decide)

theorem shown_nil (P : Pens π) : shown P ([] ++ [[]]) = fun _ _ => blank P := by
  funext r c
  cases r <;> simp [shown]

/-- **Before the rows**: an empty screen, from every state. -/
theorem prologue_run (t : Term π) (s : PaneTerminalState) (hwidth : 0 < width) :
    Painting P width height [] [] (s.hasMode modeAlternate) (t.feed P width height (prologueText s)) ∧
      (t.feed P width height (prologueText s)).pen = P.plain := by
  have hpend : false = decide ((([] : List (Cell π))).length = width) := by
    rw [eq_comm, decide_eq_false_iff_not, List.length_nil]
    omega
  rw [prologueText, feed_append, feed_reset, feed_append]
  -- the alternate screen, then the same sequences on either screen
  have hrest : ∀ t : Term π, t.top = 0 ∧ t.bottom = height - 1 → t.insert = false → t.autowrap = true → t.lost = [] →
      t.pen = P.plain →
      Painting P width height [] [] t.alternate (t.feed P width height
        (sequence "?25".toList 'l' ++ (sequence "?6".toList 'l' ++ (sequence [] 'H' ++ sequence ['2'] 'J')))) ∧
        (t.feed P width height
          (sequence "?25".toList 'l' ++ (sequence "?6".toList 'l' ++ (sequence [] 'H' ++ sequence ['2'] 'J')))).pen = P.plain := by
    intro t hregion hinsert hwrap hlost hpen
    have hhide := @feed_visible π P width height t false
    have horigin := fun t : Term π => @feed_origin π P width height t false
    rw [feed_append, feed_append, feed_append, feed_erase, feed_home]
    simp only [switch, Bool.false_eq_true, if_false] at hhide horigin
    rw [hhide, horigin]
    refine ⟨⟨rfl, ?_, rfl, ?_, ?_, hpend, hregion, rfl, hinsert, hwrap, hlost⟩, hpen⟩
    · rw [screen_setScreen, shown_nil]
      funext r c
      exact congrArg (fun p => (⟨' ', p⟩ : Cell π)) hpen
    · show min (max 0 1 - 1) (height - 1) = 0
      omega
    · show min (max 0 1 - 1) (width - 1) = min 0 (width - 1)
      omega
  cases hmode : s.hasMode modeAlternate with
  | false => exact hrest (Term.reset P height) ⟨rfl, rfl⟩ rfl rfl rfl rfl
  | true =>
    rw [if_pos rfl, feed_alternate]
    refine hrest { Term.reset P height with
      parser := .ground, saved := (0, 0, P.plain), alternate := true, alternateScreen := fun _ _ => blank P,
      pendingWrap := false } ?_ ?_ ?_ ?_ ?_
    · exact ⟨rfl, rfl⟩
    · rfl
    · rfl
    · rfl
    · rfl

/-! ## The pane is reproduced -/

/-- the terminal shows these rows and nothing else, with the cursor, the region and the modes of the pane -/
structure Shows (P : Pens π) (rows : List (List (Cell π))) (s : PaneTerminalState) (t : Term π) : Prop where
  screen : t.screen = shown P rows
  lost : t.lost = []
  cursor : t.row = s.cursorY ∧ t.col = s.cursorX ∧ t.pendingWrap = false
  region : t.top = s.scrollUpper ∧ t.bottom = s.scrollLower
  alternate : t.alternate = s.hasMode modeAlternate
  origin : t.origin = s.hasMode modeOrigin
  insert : t.insert = s.hasMode modeInsert
  autowrap : t.autowrap = s.hasMode modeWrap
  applicationCursor : t.applicationCursor = s.hasMode modeApplicationCursor
  applicationKeypad : t.applicationKeypad = s.hasMode modeApplicationKeypad
  cursorVisible : t.cursorVisible = s.hasMode modeCursorVisible
  parser : t.parser = .ground

/-- the region of the pane; a screen of one row has no other region -/
theorem scrollRegion_run {s : PaneTerminalState} (hlower : s.scrollLower < height)
    (hregion : s.scrollUpper < s.scrollLower ∨ height = 1) (hupper : s.scrollUpper ≤ s.scrollLower)
    (hfull : t.top = 0 ∧ t.bottom = height - 1) :
    ∃ row col wrap, t.scrollRegion height [s.scrollUpper + 1, s.scrollLower + 1] =
      { t with top := s.scrollUpper, bottom := s.scrollLower, row := row, col := col, pendingWrap := wrap } := by
  have hbottom : (if s.scrollLower + 1 = 0 ∨ height < s.scrollLower + 1 then height - 1 else s.scrollLower + 1 - 1) =
      s.scrollLower := by
    rw [if_neg (by omega)]
    omega
  have htop : max (s.scrollUpper + 1) 1 - 1 = s.scrollUpper := by omega
  unfold Term.scrollRegion
  simp only [param, List.getD_cons_zero, List.getD_cons_succ, hbottom, htop]
  split_ifs with hlt
  · exact ⟨_, _, _, rfl⟩
  · refine ⟨t.row, t.col, t.pendingWrap, ?_⟩
    have h0 : s.scrollUpper = t.top := by omega
    have h1 : s.scrollLower = t.bottom := by omega
    rw [h0, h1]

theorem cursor_run {s : PaneTerminalState} (hcursor : s.cursorX < width ∧ s.cursorY < height)
    (htop : t.top = s.scrollUpper ∧ t.bottom = s.scrollLower) (horigin : t.origin = s.hasMode modeOrigin)
    (hinside : s.hasMode modeOrigin = true → s.scrollUpper ≤ s.cursorY ∧ s.cursorY ≤ s.scrollLower) :
    t.cursorPosition width height [cursorRow s, s.cursorX + 1] =
      { t with row := s.cursorY, col := s.cursorX, pendingWrap := false } := by
  have hcol : min (max (s.cursorX + 1) 1 - 1) (width - 1) = s.cursorX := by omega
  have hrow : (if t.origin = true then min (t.top + (max (cursorRow s) 1 - 1)) t.bottom
      else min (max (cursorRow s) 1 - 1) (height - 1)) = s.cursorY := by
    rw [horigin, htop.1, htop.2, cursorRow]
    split_ifs with ho
    · obtain ⟨h1, h2⟩ := hinside ho
      omega
    · omega
  unfold Term.cursorPosition
  simp only [param, List.getD_cons_zero, List.getD_cons_succ, hrow, hcol]

/-- **After the rows**: region, origin mode, cursor and the other modes. -/
theorem epilogue_run {above : List (List (Cell π))} {here : List (Cell π)} {s : PaneTerminalState}
    (h : Painting P width height above here (s.hasMode modeAlternate) t) (hw : s.Within width height)
    (hregion : s.scrollUpper < s.scrollLower ∨ height = 1)
    (horigin : s.hasMode modeOrigin = true → s.cursorY ≤ s.scrollLower) :
    Shows P (above ++ [here]) s (t.feed P width height (epilogueText s)) := by
  obtain ⟨row, col, wrap, hscroll⟩ := scrollRegion_run (t := ({ t with parser := .ground } : Term π)) hw.region.2 hregion
    hw.region.1 h.region
  have hcursor := cursor_run (t := ({ t with
      parser := .ground, top := s.scrollUpper, bottom := s.scrollLower, origin := s.hasMode modeOrigin,
      row := if s.hasMode modeOrigin then s.scrollUpper else 0, col := 0, pendingWrap := false } : Term π)) (s := s) hw.cursor
    ⟨rfl, rfl⟩ rfl fun ho => ⟨hw.origin ho, horigin ho⟩
  rw [epilogueText, feed_append, feed_append, feed_append, feed_append, feed_append, feed_append, feed_append, feed_region,
    hscroll, feed_origin, feed_cursor]
  have hhome : ({ t with
      parser := .ground, top := s.scrollUpper, bottom := s.scrollLower, origin := s.hasMode modeOrigin,
      row := row, col := col, pendingWrap := wrap } : Term π).home =
      { t with
        parser := .ground, top := s.scrollUpper, bottom := s.scrollLower, origin := s.hasMode modeOrigin,
        row := if s.hasMode modeOrigin then s.scrollUpper else 0, col := 0, pendingWrap := false } := rfl
  rw [hhome]
  show Shows P (above ++ [here]) s ((((((({ t with
      parser := .ground, top := s.scrollUpper, bottom := s.scrollLower, origin := s.hasMode modeOrigin,
      row := if s.hasMode modeOrigin then s.scrollUpper else 0, col := 0, pendingWrap := false } : Term π).cursorPosition width height
        [cursorRow s, s.cursorX + 1]).feed P width height _).feed P width height _).feed P width height _).feed P width height
          _).feed P width height _)
  rw [hcursor, feed_insert, feed_wrap, feed_cursorKeys, feed_keypad, feed_visible]
  exact ⟨h.screen, h.lost, ⟨rfl, rfl, rfl⟩, ⟨rfl, rfl⟩, h.alternate, rfl, rfl, rfl, rfl, rfl, rfl, rfl⟩

/-- no rows, or no cells behind the rows: the same screen -/
theorem shown_append_nil (P : Pens π) : shown P ([] ++ [[]]) = shown P [] := by
  rw [shown_nil]
  funext r c
  simp [shown]

/-- **Bootstrap replay.** For every accepted pane whose region is one, with the cursor inside it in origin mode, and every list
of rows that fits the pane: the bytes of `capture_lines` bring a terminal of its size, from any state, to exactly these rows,
with nothing scrolled off, and to the cursor, the region and the modes of the pane. -/
theorem bootstrap_replay (P : Pens π) (row : Bytes) (window : WindowProjection) (pane : PaneProjection)
    (hpane : parsePaneRow row window = .ok pane)
    (hregion : pane.terminal.scrollUpper < pane.terminal.scrollLower ∨ pane.height = 1)
    (horigin : pane.terminal.hasMode modeOrigin = true → pane.terminal.cursorY ≤ pane.terminal.scrollLower)
    (rows : List (List Terminal.Piece)) (hrows : rows.length ≤ pane.height) (hcells : ∀ r ∈ rows, cells r ≤ pane.width)
    (bytes : Bytes) (hbytes : captureLines (rows.map rowBytes) pane = .ok bytes) (t : Term π) :
    ∃ text, fromUtf8 bytes = some text ∧
      Shows P (paintRows P P.plain rows) pane.terminal (t.feed P pane.width pane.height text) := by
  have hfits := (parsePaneRow_spec hpane).1
  refine ⟨_, by rw [captureLines_text hbytes, fromUtf8_utf8], ?_⟩
  obtain ⟨h1, hpen⟩ := @prologue_run π P pane.width pane.height t pane.terminal hfits.width.1
  rw [feed_append, feed_append]
  by_cases hne : rows = []
  · have h2 := epilogue_run h1 hfits.terminal hregion horigin
    subst hne
    refine ⟨?_, h2.lost, h2.cursor, h2.region, h2.alternate, h2.origin, h2.insert, h2.autowrap, h2.applicationCursor,
      h2.applicationKeypad, h2.cursorVisible, h2.parser⟩
    rw [paintRows, ← shown_append_nil]
    exact h2.screen
  · obtain ⟨above, here, happ, h2⟩ := paintRows_run rows hne h1 hfits.width.1 (by simpa using hrows) hcells
    rw [List.nil_append, hpen] at happ
    have h3 := epilogue_run h2 hfits.terminal hregion horigin
    rw [happ] at h3
    exact h3

/-- a full row and a coloured one, on the alternate screen -/
def twoRows : List (List Terminal.Piece) :=
  [[.cell 'a' (by decide), .cell 'b' (by decide)], [.sgr ['1'] (List.all_iff_forall_prop.1 (by decide)), .cell 'c' (by decide)]]

/-- the cursor stands in a region of two rows, in origin mode -/
theorem bootstrap_replay_twoRows : ∃ pane bytes text,
    parsePaneRow (ascii "%1:@1:1:2:2:0:0:1:1:1:1:0:1:0:1:1:0:1") ⟨"@1".toList, "w".toList, 2, 2, "x".toList⟩ = .ok pane ∧
      captureLines (twoRows.map rowBytes) pane = .ok bytes ∧ fromUtf8 bytes = some text ∧
      Shows ⟨[], fun ps pen => ps ++ pen⟩ [[⟨'a', []⟩, ⟨'b', []⟩], [⟨'c', ['1']⟩]] pane.terminal
        ((Term.reset ⟨[], fun ps pen => ps ++ pen⟩ 2).feed ⟨[], fun ps pen => ps ++ pen⟩ 2 2 text) := by
  have hpane : parsePaneRow (ascii "%1:@1:1:2:2:0:0:1:1:1:1:0:1:0:1:1:0:1") ⟨"@1".toList, "w".toList, 2, 2, "x".toList⟩ =
      .ok ⟨"%1".toList, true, 2, 2, 0, 0, [], [], ⟨1, 1, 107, 0, 1⟩⟩ := by decide +kernel
  have hbytes : (captureLines (twoRows.map rowBytes) ⟨"%1".toList, true, 2, 2, 0, 0, [], [], ⟨1, 1, 107, 0, 1⟩⟩).isOk = true := by
    decide +kernel
  rcases hc : captureLines (twoRows.map rowBytes) ⟨"%1".toList, true, 2, 2, 0, 0, [], [], ⟨1, 1, 107, 0, 1⟩⟩ with e | bytes
  · rw [hc] at hbytes
    cases hbytes
  · obtain ⟨text, htext, hshows⟩ := bootstrap_replay ⟨[], fun ps pen => ps ++ pen⟩ _ _ _ hpane (.inl (by decide)) (fun _ => by decide)
      twoRows (by decide) (by decide) bytes hc (Term.reset _ 2)
    exact ⟨_, bytes, text, hpane, hc, htext, hshows⟩

end OwlMux.Tmux
