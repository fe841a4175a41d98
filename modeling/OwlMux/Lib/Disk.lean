/-
A file that is replaced by renaming over it: the new content goes to a temporary file, the temporary file is synced, it is
renamed over the path, and the directory is synced.

- `entry`: what the path names now;
- `recorded`: what it names on the medium, until the directory is synced;
- `crash`: the process ends and the disk stays as it is, or the power fails. Then a rename has happened or not, and a file
  that was not synced has lost its content.

`Holds d a` says that the path names `a` now and after every crash. `Ready d a k` says how far a replacement by `a` has come
before its stage `k`. `holds_record`: after the last stage the disk holds `a`; `Holds.advance`: replacing `a` by `a` never
lets go of it.
-/
import Mathlib.Tactic

namespace OwlMux

/-- a file; a content of `none` cannot be read back -/
structure File (α : Type*) where
  content : Option α
  synced : Bool
deriving DecidableEq, Repr

structure Disk (α : Type*) where
  entry : Option (File α)
  recorded : Option (File α)
  temporary : Option (File α)
deriving DecidableEq, Repr

namespace Disk

variable {α : Type*}

/-- the stages of a replacement -/
inductive Stage where
  | create
  | sync
  | rename
  | record
deriving DecidableEq, Repr

def Stage.next : Stage → Option Stage
  | .create => some .sync
  | .sync => some .rename
  | .rename => some .record
  | .record => none

/-- one stage of replacing the file by `a` -/
def advance (d : Disk α) (a : α) : Stage → Disk α
  | .create => { d with temporary := some ⟨some a, false⟩ }
  | .sync => { d with temporary := d.temporary.map fun f => { f with synced := true } }
  | .rename => { d with entry := d.temporary, temporary := none }
  | .record => { d with recorded := d.entry }

inductive Crash where
  | process
  | power (renamed : Bool)
deriving DecidableEq, Repr

/-- what the power failure leaves of a file -/
def survive (f : File α) : File α := if f.synced then f else ⟨none, true⟩

def crash (d : Disk α) : Crash → Disk α
  | .process => d
  | .power renamed =>
    let f := (if renamed then d.entry else d.recorded).map survive
    ⟨f, f, none⟩

/-- the path names `a`, and no crash changes that -/
structure Holds (d : Disk α) (a : α) : Prop where
  entry : d.entry = some ⟨some a, true⟩
  recorded : d.recorded = some ⟨some a, true⟩

theorem Holds.crash {d : Disk α} {a : α} (h : Holds d a) (c : Crash) : Holds (d.crash c) a := by
  cases c with
  | process => exact h
  | power renamed =>
    have hf : (if renamed then d.entry else d.recorded).map survive = some ⟨some a, true⟩ := by
      cases renamed with
      | false =>
        rw [if_neg Bool.false_ne_true, h.recorded]
        rfl
      | true =>
        rw [if_pos rfl, h.entry]
        rfl
    exact ⟨hf, hf⟩

/-- how far a replacement by `a` has come -/
def Ready (d : Disk α) (a : α) : Stage → Prop
  | .create => True
  | .sync => d.temporary = some ⟨some a, false⟩
  | .rename => d.temporary = some ⟨some a, true⟩
  | .record => d.entry = some ⟨some a, true⟩

theorem Ready.advance {d : Disk α} {a : α} {k j : Stage} (h : Ready d a k) (hj : k.next = some j) :
    Ready (d.advance a k) a j := by
  cases k <;> cases hj
  · rfl
  · show Option.map _ d.temporary = _
    rw [show d.temporary = some ⟨some a, false⟩ from h]
    rfl
  · exact h

/-- **Replaced.** After the last stage the disk holds the new content. -/
theorem holds_record {d : Disk α} {a : α} (h : Ready d a .record) : Holds (d.advance a .record) a := ⟨h, h⟩

/-- a disk that holds `a` holds it at every stage of a replacement by `a` -/
theorem Holds.advance {d : Disk α} {a : α} {k : Stage} (hd : Holds d a) (h : Ready d a k) : Holds (d.advance a k) a := by
  cases k with
  | create => exact ⟨hd.entry, hd.recorded⟩
  | sync => exact ⟨hd.entry, hd.recorded⟩
  | rename => exact ⟨h, hd.recorded⟩
  | record => exact ⟨hd.entry, hd.entry⟩

end Disk

end OwlMux
