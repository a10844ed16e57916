/-
  DexProxy.Python.Str — the `str` methods the Harbor connector calls, over Lean's
  `String` (a Python `str` is a sequence of code points, and so is `String.data`):
  `strip`, `lstrip` and `rstrip` with a set of characters, `startswith`, `endswith`,
  `sub in s`, `sep.join(parts)`, and a string's truth value.

  `strip` is `rstrip` after `lstrip`; CPython's `do_argstrip` finds both ends at once,
  which is the same string.

  Proved, for `HarborAPI._compose_url`:
  - `lstrip_lstrip` / `rstrip_rstrip` / `lstrip_rstrip`: one-sided strips are idempotent
    and commute, so `strip_lstrip` and `strip_rstrip`: stripping after either is stripping.
  - `truthy_lstrip` / `truthy_rstrip`: a one-sided strip is empty exactly when the strip is.
  - `strip_pad`: `strip` forgets any number of leading and trailing strip characters.
  - `strip_not_startswith` / `strip_not_endswith`: a stripped string has no strip
    character at either end.
  - `join_append_last`: what `sep.join` does when text is added to the last part.
-/

import Mathlib.Data.List.DropRight
import Mathlib.Data.List.Infix

namespace DexProxy.Python

/-- `c in chars`. -/
def isIn (chars : String) (c : Char) : Bool := chars.data.contains c

def lstrip (s chars : String) : String := ⟨s.data.dropWhile (isIn chars)⟩

def rstrip (s chars : String) : String := ⟨s.data.rdropWhile (isIn chars)⟩

def strip (s chars : String) : String := rstrip (lstrip s chars) chars

def startswith (s pre : String) : Bool := pre.data.isPrefixOf s.data

def endswith (s suf : String) : Bool := suf.data.reverse.isPrefixOf s.data.reverse

/-- `sub in s`. -/
def contains (s sub : String) : Bool := decide (sub.data <:+: s.data)

/-- `bool(s)`. -/
def truthy (s : String) : Bool := !s.data.isEmpty

/-- `sep.join(parts)`. -/
def join (sep : String) : List String → String
  | [] => ""
  | [a] => a
  | a :: b :: rest => a ++ sep ++ join sep (b :: rest)

/-- `s.split(c)`. -/
def split (s : String) (c : Char) : List String := (s.data.splitOn c).map String.mk

/-- `bool(x)` for an `Optional[str]`. -/
def truthyOpt : Option String → Bool
  | none => false
  | some s => truthy s

/-- `bool(x)` for an `Optional[int]`. -/
def truthyNat : Option Nat → Bool
  | none => false
  | some n => n != 0

/-- `a or b` for two `Optional[str]`. -/
def orElse (a b : Option String) : Option String := if truthyOpt a then a else b

/-! ## One-sided strips over the characters -/

section Lists

variable {α : Type} (p : α → Bool)

theorem rdropWhile_cons (a : α) (l : List α) :
    (a :: l).rdropWhile p = if (l.rdropWhile p).isEmpty && p a then [] else a :: l.rdropWhile p := by
  rw [List.rdropWhile, List.rdropWhile, List.reverse_cons, List.dropWhile_append]
  cases l.reverse.dropWhile p with
  | nil => cases ha : p a <;> simp [List.dropWhile, ha]
  | cons b r => simp

theorem dropWhile_rdropWhile (l : List α) :
    (l.rdropWhile p).dropWhile p = (l.dropWhile p).rdropWhile p := by
  induction l with
  | nil => rfl
  | cons a l ih =>
    rw [rdropWhile_cons]
    by_cases ha : p a
    · by_cases hl : (l.rdropWhile p).isEmpty
      · have hall := List.rdropWhile_eq_nil_iff.mp (List.isEmpty_iff.mp hl)
        simp [hl, ha, List.dropWhile_eq_nil_iff.mpr hall]
      · simp [hl, ha, ih]
    · simp [ha, rdropWhile_cons]

theorem rdropWhile_append_of_all {suf : List α} (h : ∀ x ∈ suf, p x) (l : List α) :
    (l ++ suf).rdropWhile p = l.rdropWhile p := by
  simp only [List.rdropWhile, List.reverse_append]
  rw [List.dropWhile_append_of_pos (fun x hx => h x (List.mem_reverse.mp hx))]

theorem dropWhile_append_of_ne_nil {l : List α} (h : l.dropWhile p ≠ []) (r : List α) :
    (l ++ r).dropWhile p = l.dropWhile p ++ r := by
  simp [List.dropWhile_append, List.isEmpty_iff, h]

theorem rdropWhile_append_of_ne_nil {r : List α} (h : r.rdropWhile p ≠ []) (l : List α) :
    (l ++ r).rdropWhile p = l ++ r.rdropWhile p := by
  have h' : r.reverse.dropWhile p ≠ [] := fun he => h (by simp [List.rdropWhile, he])
  simp only [List.rdropWhile, List.reverse_append, dropWhile_append_of_ne_nil p h', List.reverse_append,
    List.reverse_reverse]

theorem isEmpty_rdropWhile (l : List α) : (l.rdropWhile p).isEmpty = (l.dropWhile p).isEmpty := by
  rw [Bool.eq_iff_iff, List.isEmpty_iff, List.isEmpty_iff, List.dropWhile_eq_nil_iff,
    List.rdropWhile_eq_nil_iff]

theorem isEmpty_rdropWhile_dropWhile (l : List α) :
    ((l.dropWhile p).rdropWhile p).isEmpty = (l.dropWhile p).isEmpty := by
  rw [isEmpty_rdropWhile, List.dropWhile_idempotent]

theorem head?_rdropWhile_dropWhile {l : List α} {x : α} (h : ((l.dropWhile p).rdropWhile p).head? = some x) :
    p x = false := by
  obtain ⟨t, ht⟩ := List.rdropWhile_prefix p (l.dropWhile p)
  have hne : l.dropWhile p ≠ [] := by rintro he; simp [he] at h
  have hx : (l.dropWhile p).head? = some x := by
    rw [← ht, List.head?_append, h]; rfl
  rw [List.head?_eq_head hne, Option.some_inj] at hx
  simpa [hx] using List.head_dropWhile_not p _ hne

theorem getLast?_rdropWhile {l : List α} {x : α} (h : (l.rdropWhile p).getLast? = some x) : p x = false := by
  have hne : l.rdropWhile p ≠ [] := by rintro he; simp [he] at h
  rw [List.getLast?_eq_getLast _ hne, Option.some_inj] at h
  simpa [h] using List.rdropWhile_last_not p l hne

theorem modifyHead_append {f : α → α} {l : List α} (h : l ≠ []) (r : List α) :
    (l ++ r).modifyHead f = l.modifyHead f ++ r := by
  cases l with
  | nil => exact absurd rfl h
  | cons a l => rfl

theorem splitOnP_append_sep {a : α} (ha : p a) (l : List α) {x : List α} (hx : ∀ y ∈ x, ¬ p y) :
    (l ++ a :: x).splitOnP p = l.splitOnP p ++ [x] := by
  induction l with
  | nil => simp [ha, List.splitOnP_eq_single p x hx]
  | cons b l ih =>
    rw [List.cons_append, List.splitOnP_cons, List.splitOnP_cons, ih]
    split
    · rfl
    · exact modifyHead_append (List.splitOnP_ne_nil _ _) _

end Lists

/-! ## Strips -/

@[simp] theorem lstrip_data (s chars : String) : (lstrip s chars).data = s.data.dropWhile (isIn chars) := rfl

@[simp] theorem rstrip_data (s chars : String) : (rstrip s chars).data = s.data.rdropWhile (isIn chars) := rfl

@[simp] theorem truthy_iff (s : String) : truthy s = true ↔ s.data ≠ [] := by
  simp [truthy, List.isEmpty_iff]

@[simp] theorem lstrip_lstrip (s chars : String) : lstrip (lstrip s chars) chars = lstrip s chars :=
  String.ext (List.dropWhile_idempotent _ _)

@[simp] theorem rstrip_rstrip (s chars : String) : rstrip (rstrip s chars) chars = rstrip s chars :=
  String.ext (List.rdropWhile_idempotent _ _)

theorem lstrip_rstrip (s chars : String) :
    lstrip (rstrip s chars) chars = rstrip (lstrip s chars) chars :=
  String.ext (dropWhile_rdropWhile _ _)

@[simp] theorem strip_lstrip (s chars : String) : strip (lstrip s chars) chars = strip s chars := by
  simp [strip]

@[simp] theorem strip_rstrip (s chars : String) : strip (rstrip s chars) chars = strip s chars := by
  rw [strip, lstrip_rstrip, rstrip_rstrip, strip]

@[simp] theorem truthy_lstrip (s chars : String) : truthy (lstrip s chars) = truthy (strip s chars) := by
  simp only [truthy, strip, lstrip_data, rstrip_data, isEmpty_rdropWhile_dropWhile]

@[simp] theorem truthy_rstrip (s chars : String) : truthy (rstrip s chars) = truthy (strip s chars) := by
  simp only [truthy, strip, lstrip_data, rstrip_data, isEmpty_rdropWhile, List.dropWhile_idempotent]

/-- Leading and trailing copies of `c`, `a` and `b` of them, around `s`. -/
def pad (c : Char) (a b : Nat) (s : String) : String := ⟨List.replicate a c ++ s.data ++ List.replicate b c⟩

theorem strip_pad {chars : String} {c : Char} (hc : isIn chars c = true) (a b : Nat) (s : String) :
    strip (pad c a b s) chars = strip s chars := by
  have hrep : ∀ n, ∀ x ∈ List.replicate n c, isIn chars x := by
    intro n x hx; rw [List.eq_of_mem_replicate hx]; exact hc
  apply String.ext
  simp only [strip, pad, rstrip_data, lstrip_data, List.append_assoc]
  rw [List.dropWhile_append_of_pos (hrep a), ← dropWhile_rdropWhile, rdropWhile_append_of_all _ (hrep b),
    dropWhile_rdropWhile]

/-! ## Ends of a stripped string -/

theorem strip_not_startswith {chars : String} {c : Char} (hc : isIn chars c = true) (s : String) :
    startswith (strip s chars) ⟨[c]⟩ = false := by
  cases h : (strip s chars).data with
  | nil => simp [startswith, h]
  | cons x r =>
    have hx := head?_rdropWhile_dropWhile (isIn chars) (l := s.data) (x := x) (by rw [show (s.data.dropWhile (isIn chars)).rdropWhile (isIn chars) = x :: r from h]; rfl)
    simp only [startswith, h, List.isPrefixOf, List.isPrefixOf_nil_left, Bool.and_true, beq_eq_false_iff_ne]
    rintro rfl; simp [hc] at hx

theorem strip_not_endswith {chars : String} {c : Char} (hc : isIn chars c = true) (s : String) :
    endswith (strip s chars) ⟨[c]⟩ = false := by
  cases h : (strip s chars).data.reverse with
  | nil => simp [endswith, h]
  | cons x r =>
    have hl : ((s.data.dropWhile (isIn chars)).rdropWhile (isIn chars)).getLast? = some x := by
      rw [List.getLast?_eq_head?_reverse]; simpa [strip] using congrArg List.head? h
    have hx := getLast?_rdropWhile (isIn chars) hl
    simp only [endswith, h, List.reverse_singleton, List.isPrefixOf, List.isPrefixOf_nil_left,
      Bool.and_true, beq_eq_false_iff_ne]
    rintro rfl; simp [hc] at hx

theorem lstrip_append_of_all {chars pre : String} (h : ∀ x ∈ pre.data, isIn chars x) (s : String) :
    lstrip (pre ++ s) chars = lstrip s chars :=
  String.ext (by simp [List.dropWhile_append_of_pos h])

theorem lstrip_append {s chars : String} (h : truthy (lstrip s chars)) (t : String) :
    lstrip (s ++ t) chars = lstrip s chars ++ t :=
  String.ext (by simpa using dropWhile_append_of_ne_nil _ ((truthy_iff _).mp h) t.data)

theorem rstrip_append {t chars : String} (h : truthy (rstrip t chars)) (s : String) :
    rstrip (s ++ t) chars = s ++ rstrip t chars :=
  String.ext (by simpa using rdropWhile_append_of_ne_nil _ ((truthy_iff _).mp h) s.data)

/-! ## `join` and `split` -/

theorem join_cons {sep a : String} {rest : List String} (h : rest ≠ []) :
    join sep (a :: rest) = a ++ sep ++ join sep rest := by
  cases rest with
  | nil => exact absurd rfl h
  | cons b rest => rfl

theorem join_append_last (sep : String) (parts : List String) (a t : String) :
    join sep (parts ++ [a ++ t]) = join sep (parts ++ [a]) ++ t := by
  induction parts with
  | nil => rfl
  | cons x parts ih =>
    rw [List.cons_append, List.cons_append, join_cons (by simp), join_cons (by simp), ih]
    simp only [String.append_assoc]

theorem split_append_sep {c : Char} (s : String) {x : String} (hx : c ∉ x.data) :
    split (s ++ ⟨[c]⟩ ++ x) c = split s c ++ [x] := by
  have hdata : (s ++ ⟨[c]⟩ ++ x).data = s.data ++ c :: x.data := by simp
  simp only [split, hdata, List.splitOn]
  rw [splitOnP_append_sep _ (by simp) _ (fun y hy hyc => hx (by simpa [beq_iff_eq.mp hyc] using hy))]
  simp

end DexProxy.Python
