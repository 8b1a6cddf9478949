/-
# Terms written as text

A term is an atom or a named group of terms.  It is written with the name of the
group in front of its members, the members in brackets and separated by bars.
Atoms are written in a way of their own.

The main result is unique reading: if atoms can be told apart from each other and
from groups, two well-formed terms with the same text are the same term.
-/

import Mathlib.Data.List.Basic

namespace Nodecore.Lib

section Separators

variable {α : Type}

theorem append_cons_inj_of_not_mem {c : α} {text other rest rest' : List α} (absent : c ∉ text)
    (absent' : c ∉ other) (same : text ++ c :: rest = other ++ c :: rest') :
    text = other ∧ rest = rest' := by
  induction text generalizing other with
  | nil =>
    cases other with
    | nil => exact ⟨rfl, (List.cons.inj same).2⟩
    | cons d other =>
      exact absurd ((List.cons.inj same).1 ▸ List.mem_cons_self) absent'
  | cons d text ih =>
    cases other with
    | nil => exact absurd ((List.cons.inj same).1 ▸ List.mem_cons_self) absent
    | cons d' other =>
      obtain ⟨rfl, later⟩ := List.cons.inj same
      obtain ⟨rfl, sameRest⟩ := ih (fun h => absent (List.mem_cons_of_mem _ h))
        (fun h => absent' (List.mem_cons_of_mem _ h)) later
      exact ⟨rfl, sameRest⟩

theorem not_mem_intercalate {c separator : α} {texts : List (List α)} (differs : c ≠ separator)
    (absent : ∀ text ∈ texts, c ∉ text) : c ∉ List.intercalate [separator] texts := by
  induction texts with
  | nil => simp [List.intercalate]
  | cons text rest ih =>
    have here := absent text List.mem_cons_self
    have later := ih fun t ht => absent t (List.mem_cons_of_mem _ ht)
    cases rest with
    | nil => simpa using here
    | cons next rest =>
      rw [List.intercalate_cons_cons]
      simp [here, differs, later]

end Separators

section Numbers

variable {c : Char}

theorem not_mem_toString_nat (digit : c.isDigit = false) (number : ℕ) :
    c ∉ (toString number).toList := by
  intro listed
  rw [Nat.toString_eq_repr, Nat.toList_repr] at listed
  rw [Nat.isDigit_of_mem_toDigits (by decide) (by decide) listed] at digit
  cases digit

theorem toString_nat_inj {number other : ℕ}
    (same : (toString number).toList = (toString other).toList) : number = other := by
  simp only [Nat.toString_eq_repr, Nat.toList_repr] at same
  simpa using congrArg (Nat.ofDigitChars 10 · 0) same

end Numbers

/-- Terms over atoms `α`, with groups named by `β`. -/
inductive KeyTerm (α β : Type)
  | atom (a : α)
  | node (b : β) (children : List (KeyTerm α β))

namespace KeyTerm

variable {α β : Type}

@[elab_as_elim, induction_eliminator]
theorem induction {motive : KeyTerm α β → Prop} (atom : ∀ a, motive (.atom a))
    (node : ∀ b children, (∀ child ∈ children, motive child) → motive (.node b children))
    (term : KeyTerm α β) : motive term :=
  @KeyTerm.rec α β motive (fun children => ∀ child ∈ children, motive child) atom node
    (fun _ member => absurd member List.not_mem_nil)
    (fun _ _ head tail child member =>
      (List.mem_cons.mp member).elim (fun same => same ▸ head) (tail child))
    term

section

variable (showAtom : α → List Char) (showNode : β → List Char)

mutual

def render : KeyTerm α β → List Char
  | atom a => showAtom a
  | node b children => showNode b ++ '(' :: (renderAll children ++ [')'])

def renderAll : List (KeyTerm α β) → List Char
  | [] => []
  | term :: rest => render term ++ renderRest rest

def renderRest : List (KeyTerm α β) → List Char
  | [] => []
  | term :: rest => '|' :: (render term ++ renderRest rest)

end

theorem renderAll_eq_intercalate (terms : List (KeyTerm α β)) :
    renderAll showAtom showNode terms =
      List.intercalate ['|'] (terms.map (render showAtom showNode)) := by
  cases terms with
  | nil => rfl
  | cons term rest =>
    induction rest generalizing term with
    | nil => simp [renderAll, renderRest]
    | cons next rest ih =>
      have later := ih next
      rw [renderAll] at later
      rw [renderAll, renderRest, later]
      simp [List.intercalate]

end

/-- Atoms can be told apart from each other, groups by their names, and atoms from
groups, whatever follows them.  Nothing begins with a closing bracket. -/
structure Readable (showAtom : α → List Char) (showNode : β → List Char) (good : α → Prop) :
    Prop where
  atoms : ∀ {a a' : α}, good a → good a' → ∀ {rest rest' : List Char},
    showAtom a ++ rest = showAtom a' ++ rest' → a = a' ∧ rest = rest'
  nodes : ∀ {b b' : β} {rest rest' : List Char},
    showNode b ++ '(' :: rest = showNode b' ++ '(' :: rest' → b = b' ∧ rest = rest'
  apart : ∀ {a : α} {b : β} {rest rest' : List Char}, good a →
    showAtom a ++ rest ≠ showNode b ++ '(' :: rest'
  atomOpen : ∀ {a : α} {rest rest' : List Char}, good a → showAtom a ++ rest ≠ ')' :: rest'
  nodeOpen : ∀ {b : β} {rest rest' : List Char}, showNode b ++ '(' :: rest ≠ ')' :: rest'

/-- Every atom is good. -/
inductive WellFormed (good : α → Prop) : KeyTerm α β → Prop
  | atom {a : α} (isGood : good a) : WellFormed good (.atom a)
  | node {b : β} {children : List (KeyTerm α β)}
      (members : ∀ child ∈ children, WellFormed good child) : WellFormed good (.node b children)

section

variable {showAtom : α → List Char} {showNode : β → List Char} {good : α → Prop}

theorem render_append_ne (readable : Readable showAtom showNode good) {term : KeyTerm α β}
    (wellFormed : WellFormed good term) {rest rest' : List Char} :
    render showAtom showNode term ++ rest ≠ ')' :: rest' := by
  cases wellFormed with
  | atom isGood => exact readable.atomOpen isGood
  | node _ =>
    rw [render, List.append_assoc, List.cons_append]
    exact readable.nodeOpen

theorem renderRest_append_inj {terms others : List (KeyTerm α β)}
    (reads : ∀ term ∈ terms, ∀ {other : KeyTerm α β}, WellFormed good other →
      ∀ {rest rest' : List Char}, render showAtom showNode term ++ rest =
        render showAtom showNode other ++ rest' → term = other ∧ rest = rest')
    (wellFormed : ∀ other ∈ others, WellFormed good other) {rest rest' : List Char}
    (same : renderRest showAtom showNode terms ++ ')' :: rest =
      renderRest showAtom showNode others ++ ')' :: rest') :
    terms = others ∧ rest = rest' := by
  induction terms generalizing others with
  | nil =>
    cases others with
    | nil => exact ⟨rfl, (List.cons.inj same).2⟩
    | cons other others => exact absurd (List.cons.inj same).1 (by decide)
  | cons term terms ih =>
    cases others with
    | nil => exact absurd (List.cons.inj same).1 (by decide)
    | cons other others =>
      rw [renderRest, renderRest, List.cons_append, List.cons_append, List.cons.injEq,
        List.append_assoc, List.append_assoc] at same
      obtain ⟨rfl, later⟩ := reads term List.mem_cons_self
        (wellFormed other List.mem_cons_self) same.2
      obtain ⟨rfl, sameRest⟩ := ih (fun t ht => reads t (List.mem_cons_of_mem _ ht))
        (fun o ho => wellFormed o (List.mem_cons_of_mem _ ho)) later
      exact ⟨rfl, sameRest⟩

theorem render_append_inj (readable : Readable showAtom showNode good) {term : KeyTerm α β}
    (wellFormed : WellFormed good term) {other : KeyTerm α β}
    (otherWellFormed : WellFormed good other) {rest rest' : List Char}
    (same : render showAtom showNode term ++ rest = render showAtom showNode other ++ rest') :
    term = other ∧ rest = rest' := by
  induction term generalizing other rest rest' with
  | atom a =>
    cases wellFormed with
    | atom isGood =>
      cases otherWellFormed with
      | atom isGood' =>
        obtain ⟨rfl, sameRest⟩ := readable.atoms isGood isGood' same
        exact ⟨rfl, sameRest⟩
      | node _ =>
        rw [render, render, List.append_assoc, List.cons_append] at same
        exact absurd same (readable.apart isGood)
  | node b children ih =>
    cases wellFormed with
    | node members =>
      cases otherWellFormed with
      | atom isGood' =>
        rw [render, render, List.append_assoc, List.cons_append] at same
        exact absurd same.symm (readable.apart isGood')
      | @node b' children' members' =>
        simp only [render, List.append_assoc, List.cons_append, List.nil_append] at same
        obtain ⟨rfl, inside⟩ := readable.nodes same
        -- the first members have no bar before them; the others are read by the loop
        match children, children' with
        | [], [] => exact ⟨rfl, (List.cons.inj inside).2⟩
        | [], first' :: _ =>
          rw [renderAll, renderAll, List.append_assoc] at inside
          exact absurd inside.symm
            (render_append_ne readable (members' first' List.mem_cons_self))
        | first :: _, [] =>
          rw [renderAll, renderAll, List.append_assoc] at inside
          exact absurd inside (render_append_ne readable (members first List.mem_cons_self))
        | first :: others, first' :: others' =>
          rw [renderAll, renderAll, List.append_assoc, List.append_assoc] at inside
          obtain ⟨rfl, later⟩ := ih first List.mem_cons_self
            (members first List.mem_cons_self) (members' first' List.mem_cons_self) inside
          obtain ⟨rfl, sameRest⟩ := renderRest_append_inj
            (fun t ht o => ih t (List.mem_cons_of_mem _ ht)
              (members t (List.mem_cons_of_mem _ ht)))
            (fun o ho => members' o (List.mem_cons_of_mem _ ho)) later
          exact ⟨rfl, sameRest⟩

theorem render_inj (readable : Readable showAtom showNode good) {term other : KeyTerm α β}
    (wellFormed : WellFormed good term) (otherWellFormed : WellFormed good other)
    (same : render showAtom showNode term = render showAtom showNode other) : term = other := by
  have appended : render showAtom showNode term ++ [] = render showAtom showNode other ++ [] := by
    rw [same]
  exact (render_append_inj readable wellFormed otherWellFormed appended).1

end

end KeyTerm

end Nodecore.Lib
