import Mathlib.Algebra.Ring.Nat
import Mathlib.Data.List.Basic
import Mathlib.Algebra.BigOperators.Group.List.Basic

/-! # Back-reference compression

Tokens that append literals or copy from the output, and the prefix of the data they rebuild. -/

namespace Degenbot.Library.Lz

variable {α : Type*}

/-- Appends `count` items, each the one `distance` before the end. -/
def copyBack (distance : ℕ) : ℕ → List α → Option (List α)
  | 0, output => some output
  | count + 1, output =>
      if distance ≤ output.length then
        (output[output.length - distance]?).bind fun item =>
          copyBack distance count (output ++ [item])
      else none

inductive Token (α : Type*) where
  | literals (items : List α)
  | copy (distance length : ℕ)

def Token.size : Token α → ℕ
  | .literals items => items.length
  | .copy _ length => length

def Token.apply : Token α → List α → Option (List α)
  | .literals items, output => some (output ++ items)
  | .copy distance length, output => copyBack distance length output

def expand : List (Token α) → List α → Option (List α)
  | [], output => some output
  | token :: tokens, output => (token.apply output).bind (expand tokens)

def totalSize (tokens : List (Token α)) : ℕ := (tokens.map Token.size).sum

@[simp] theorem totalSize_nil : totalSize ([] : List (Token α)) = 0 := rfl

@[simp] theorem totalSize_cons (token : Token α) (tokens : List (Token α)) :
    totalSize (token :: tokens) = token.size + totalSize tokens := by
  simp [totalSize]

@[simp] theorem totalSize_append (first second : List (Token α)) :
    totalSize (first ++ second) = totalSize first + totalSize second := by
  simp [totalSize]

/-! ## Lengths -/

theorem length_copyBack {distance count : ℕ} {output result : List α}
    (h : copyBack distance count output = some result) :
    result.length = output.length + count := by
  induction count generalizing output with
  | zero => rw [← Option.some.inj h, Nat.add_zero]
  | succ count ih =>
      rw [copyBack] at h
      split at h
      · obtain ⟨item, _, h⟩ := Option.bind_eq_some_iff.mp h
        have hlength := ih h
        rw [List.length_append, List.length_singleton] at hlength
        omega
      · cases h

theorem length_apply {token : Token α} {output result : List α}
    (h : token.apply output = some result) : result.length = output.length + token.size := by
  cases token with
  | literals items =>
      rw [← Option.some.inj h, List.length_append]
      rfl
  | copy distance length => exact length_copyBack h

theorem length_expand {tokens : List (Token α)} {output result : List α}
    (h : expand tokens output = some result) :
    result.length = output.length + totalSize tokens := by
  induction tokens generalizing output with
  | nil =>
      rw [← Option.some.inj h]
      rfl
  | cons token tokens ih =>
      obtain ⟨next, hnext, h⟩ := Option.bind_eq_some_iff.mp h
      rw [ih h, length_apply hnext, totalSize_cons, Nat.add_assoc]

/-! ## Composition -/

theorem expand_append (first second : List (Token α)) (output : List α) :
    expand (first ++ second) output = (expand first output).bind (expand second) := by
  induction first generalizing output with
  | nil => rfl
  | cons token tokens ih =>
      rw [List.cons_append, expand, expand, Option.bind_assoc]
      exact congrArg _ (funext ih)

theorem copyBack_add (distance first second : ℕ) (output : List α) :
    copyBack distance (first + second) output =
      (copyBack distance first output).bind (copyBack distance second) := by
  induction first generalizing output with
  | zero => rw [Nat.zero_add, copyBack, Option.bind_some]
  | succ first ih =>
      rw [Nat.succ_add, copyBack, copyBack]
      split
      · rw [Option.bind_assoc]
        exact congrArg _ (funext fun item => ih (output ++ [item]))
      · rfl

/-! ## Prefixes -/

/-- A copy of items that the data repeats extends a prefix of the data. -/
theorem copyBack_take {data : List α} {pos distance count : ℕ} (hpos : 0 < distance)
    (hle : distance ≤ pos) (hfits : pos + count ≤ data.length)
    (hequal : ∀ k < count, data[pos - distance + k]? = data[pos + k]?) :
    copyBack distance count (data.take pos) = some (data.take (pos + count)) := by
  induction count generalizing pos with
  | zero => rfl
  | succ count ih =>
      have hlength : (data.take pos).length = pos := by
        rw [List.length_take]
        omega
      have hitem : (data.take pos)[pos - distance]? = some (data.get ⟨pos, by omega⟩) := by
        rw [List.getElem?_take_of_lt (by omega)]
        have hfirst := hequal 0 (by omega)
        rw [Nat.add_zero, Nat.add_zero] at hfirst
        rw [hfirst, List.getElem?_eq_getElem (by omega)]
        rfl
      have hgrow : data.take pos ++ [data.get ⟨pos, by omega⟩] = data.take (pos + 1) := by
        rw [List.take_add_one, List.getElem?_eq_getElem (by omega)]
        rfl
      rw [copyBack, hlength, if_pos hle, hitem, Option.bind_some, hgrow,
        ih (by omega) (by omega) ?_]
      · congr 2
        omega
      · intro k hk
        have hnext := hequal (k + 1) (by omega)
        rw [show pos + 1 - distance + k = pos - distance + (k + 1) by omega, hnext]
        congr 1
        omega

end Degenbot.Library.Lz
