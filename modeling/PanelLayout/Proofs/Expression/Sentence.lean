import PanelLayout.Proofs.Expression.Naming

/-!
# Sentences

The grammar of written expressions as a relation between a row of words and the expression that it
writes, and what every such row of words looks like from outside: which words stand side by side,
and how its parentheses nest.
-/

namespace PanelLayout

@[simp] theorem words_nil : words [] = [] := rfl

@[simp] theorem words_cons (t : Token) (ts : List Token) : words (t :: ts) = t.lexeme :: words ts :=
  rfl

@[simp] theorem words_append (ts us : List Token) : words (ts ++ us) = words ts ++ words us := by
  simp [words]

/-- The kinds of phrases that the grammar knows. -/
inductive Phrase where
  | sum
  | product
  | factor
  deriving DecidableEq, Repr

/-- `Sentence extended p ws e d`: the words `ws` are a phrase of kind `p` that writes `e`, with `d`
signs, operators and operands on its longest way inwards. Sums and products group from the left, a
plus sign leaves no node. -/
inductive Sentence (extended : Bool) : Phrase → List Lexeme → Expression → Nat → Prop
  | sum {ws : List Lexeme} {e : Expression} {d : Nat} :
      Sentence extended .product ws e d → Sentence extended .sum ws e d
  | addition {op : Operator} {ws vs : List Lexeme} {l r : Expression} {m n : Nat} :
      Surface.isAdditive op = true → Sentence extended .sum ws l m →
      Sentence extended .product vs r n →
      Sentence extended .sum (ws ++ .operator op :: vs) (.operation op l r false) (max m n + 1)
  | product {ws : List Lexeme} {e : Expression} {d : Nat} :
      Sentence extended .factor ws e d → Sentence extended .product ws e d
  | multiplication {op : Operator} {ws vs : List Lexeme} {l r : Expression} {m n : Nat} :
      Surface.isMultiplicative op = true → Sentence extended .product ws l m →
      Sentence extended .factor vs r n →
      Sentence extended .product (ws ++ .operator op :: vs) (.operation op l r false) (max m n + 1)
  | plus {ws : List Lexeme} {e : Expression} {d : Nat} :
      Sentence extended .factor ws e d → Sentence extended .factor (.operator .add :: ws) e (d + 1)
  | minus {ws : List Lexeme} {e : Expression} {d : Nat} :
      Sentence extended .factor ws e d →
      Sentence extended .factor (.operator .sub :: ws) (.negation e false) (d + 1)
  | number (cs : List Char) :
      Sentence extended .factor [.number cs] (.constant (.double (Surface.numberValue cs)) false) 1
  | name {cs : List Char} {v : Variable} :
      Names extended (String.ofList cs) v →
      Sentence extended .factor [.name cs] (.variable v false) 1
  | group {ws : List Lexeme} {e : Expression} {d : Nat} :
      Sentence extended .sum ws e d → Sentence extended .factor (.opening :: (ws ++ [.closing])) e d

namespace Expression

variable {e : Expression}

def IsUnmarked : Expression → Prop
  | .constant _ b => b = false
  | .variable _ b => b = false
  | .negation e b => b = false ∧ e.IsUnmarked
  | .operation _ l r b => b = false ∧ l.IsUnmarked ∧ r.IsUnmarked

theorem IsUnmarked.ends_eq_false (h : e.IsUnmarked) : e.ends = false := by
  cases e with
  | constant | «variable» => exact h
  | negation | operation => exact h.1

theorem IsUnmarked.of_mem_references (h : e.IsUnmarked) {q : Variable × Bool}
    (hq : q ∈ e.references) : q.2 = false := by
  induction e with
  | constant n b => cases hq
  | «variable» v b =>
    obtain rfl := List.mem_singleton.mp hq
    exact h
  | negation e b ih => exact ih h.2 hq
  | operation op l r b ihl ihr =>
    rcases List.mem_append.mp hq with hq | hq
    · exact ihl h.2.1 hq
    · exact ihr h.2.2 hq

end Expression

theorem Sentence.isUnmarked {extended : Bool} {p : Phrase} {ws : List Lexeme} {e : Expression}
    {d : Nat} (h : Sentence extended p ws e d) : e.IsUnmarked := by
  induction h with
  | sum _ ih | product _ ih | plus _ ih | group _ ih => exact ih
  | addition _ _ _ ihl ihr | multiplication _ _ _ ihl ihr => exact ⟨rfl, ihl, ihr⟩
  | minus _ ih => exact ⟨rfl, ih⟩
  | number | name => rfl

namespace Lexeme

def startsOperand : Lexeme → Bool
  | .number _ | .name _ | .opening => true
  | _ => false

def endsOperand : Lexeme → Bool
  | .number _ | .name _ | .closing => true
  | _ => false

def startsPhrase : Lexeme → Bool
  | .operator op => Surface.isAdditive op
  | w => w.startsOperand

def mayPrecede (a b : Lexeme) : Bool := if a.endsOperand then !b.startsOperand else b.startsPhrase

/-- Neighbours that no expression has. Two operands side by side are also what a call looks like. -/
inductive Clash : Lexeme → Lexeme → Prop
  | operands {a b : Lexeme} : a.endsOperand = true → b.startsOperand = true → Clash a b
  | emptyPair : Clash .opening .closing
  | starredGroup : Clash .opening (.operator .mul)

theorem Clash.not_mayPrecede {a b : Lexeme} (h : Clash a b) : a.mayPrecede b = false := by
  cases h with
  | operands ha hb => simp [mayPrecede, ha, hb]
  | emptyPair => rfl
  | starredGroup => rfl

end Lexeme

/-- Whether each word may precede the next one, also if the words are put in parentheses. -/
def WellSpaced (ws : List Lexeme) : Prop :=
  (Lexeme.opening :: (ws ++ [.closing])).IsChain fun a b => a.mayPrecede b = true

namespace WellSpaced

theorem starts {ws : List Lexeme} (h : WellSpaced ws) :
    ∃ a rest, ws = a :: rest ∧ a.startsPhrase = true := by
  cases ws with
  | nil =>
    simp [WellSpaced, Lexeme.mayPrecede, Lexeme.endsOperand, Lexeme.startsPhrase,
      Lexeme.startsOperand] at h
  | cons a rest =>
    rw [WellSpaced, List.cons_append, List.isChain_cons_cons] at h
    exact ⟨a, rest, rfl, by simpa [Lexeme.mayPrecede, Lexeme.endsOperand] using h.1⟩

theorem operation {ws vs : List Lexeme} (op : Operator) (hl : WellSpaced ws) (hr : WellSpaced vs) :
    WellSpaced (ws ++ .operator op :: vs) := by
  have hleft : (Lexeme.opening :: (ws ++ [.operator op])).IsChain fun a b =>
      a.mayPrecede b = true := by
    rw [WellSpaced, ← List.cons_append, List.isChain_append] at hl
    rw [← List.cons_append, List.isChain_append]
    refine ⟨hl.1, List.isChain_singleton _, ?_⟩
    intro a ha b hb
    have hend := hl.2.2 a ha .closing rfl
    obtain rfl : b = .operator op := by simpa [eq_comm] using hb
    cases a <;>
      simp_all [Lexeme.mayPrecede, Lexeme.endsOperand, Lexeme.startsOperand, Lexeme.startsPhrase]
  have hright : (Lexeme.operator op :: (vs ++ [.closing])).IsChain fun a b =>
      a.mayPrecede b = true :=
    hr.imp_head fun h => by simpa [Lexeme.mayPrecede, Lexeme.endsOperand] using h
  rw [WellSpaced, List.append_assoc, List.cons_append, ← List.cons_append, List.isChain_split]
  exact ⟨by simpa using hleft, hright⟩

theorem sign {op : Operator} {ws : List Lexeme} (hop : Surface.isAdditive op = true)
    (h : WellSpaced ws) :
    WellSpaced (.operator op :: ws) := by
  rw [WellSpaced, List.cons_append, List.isChain_cons_cons]
  refine ⟨by simpa [Lexeme.mayPrecede, Lexeme.endsOperand, Lexeme.startsPhrase] using hop, ?_⟩
  exact h.imp_head fun h => by simpa [Lexeme.mayPrecede, Lexeme.endsOperand] using h

theorem group {ws : List Lexeme} (h : WellSpaced ws) :
    WellSpaced (.opening :: (ws ++ [.closing])) := by
  rw [WellSpaced, List.cons_append, List.isChain_cons_cons]
  refine ⟨rfl, ?_⟩
  rw [show Lexeme.opening :: (ws ++ [.closing] ++ [.closing]) = (.opening :: ws) ++ .closing ::
    [.closing] by simp, List.isChain_split]
  exact ⟨by simpa [WellSpaced] using h, by
    simp [Lexeme.mayPrecede, Lexeme.endsOperand, Lexeme.startsOperand]⟩

theorem not_clash {before after : List Lexeme} {a b : Lexeme}
    (h : WellSpaced (before ++ a :: b :: after)) :
    ¬Lexeme.Clash a b := by
  intro hc
  have hr := List.isChain_iff_forall_rel_of_append_cons_cons.mp h
  have hab := @hr a b (.opening :: before) (after ++ [.closing]) (by simp)
  rw [hc.not_mayPrecede] at hab
  exact Bool.false_ne_true hab

end WellSpaced

theorem Sentence.wellSpaced {extended : Bool} {p : Phrase} {ws : List Lexeme} {e : Expression}
    {d : Nat} (h : Sentence extended p ws e d) : WellSpaced ws := by
  induction h with
  | sum _ ih | product _ ih => exact ih
  | addition _ _ _ ihl ihr | multiplication _ _ _ ihl ihr => exact ihl.operation _ ihr
  | plus _ ih | minus _ ih => exact ih.sign rfl
  | number | name =>
    simp [WellSpaced, Lexeme.mayPrecede, Lexeme.endsOperand, Lexeme.startsPhrase,
      Lexeme.startsOperand]
  | group _ ih => exact ih.group

/-- The number of parentheses that are open after some words, where some are open before; none if a
parenthesis closes that was not opened. -/
def openCount? : Nat → List Lexeme → Option Nat
  | k, [] => some k
  | k, .opening :: ws => openCount? (k + 1) ws
  | 0, .closing :: _ => none
  | k + 1, .closing :: ws => openCount? k ws
  | k, _ :: ws => openCount? k ws

def NestsWithin (limit : Nat) (ws : List Lexeme) : Prop :=
  ∀ before, before <+: ws → before.count .opening ≤ before.count .closing + limit

theorem nestsWithin_of_count {limit : Nat} {ws : List Lexeme} (h : ws.count .opening ≤ limit) :
    NestsWithin limit ws := by
  intro before hbefore
  have hcount := hbefore.sublist.count_le .opening
  omega

theorem Sentence.openCount?_append {extended : Bool} {p : Phrase} {ws : List Lexeme}
    {e : Expression} {d : Nat} (h : Sentence extended p ws e d) (k : Nat) (rest : List Lexeme) :
    openCount? k (ws ++ rest) = openCount? k rest := by
  induction h generalizing k rest with
  | sum _ ih | product _ ih => exact ih k rest
  | addition _ _ _ ihl ihr | multiplication _ _ _ ihl ihr =>
    rw [List.append_assoc, ihl, List.cons_append, openCount?, ihr]
    all_goals simp
  | plus _ ih | minus _ ih =>
    rw [List.cons_append, openCount?, ih]
    all_goals simp
  | number | name => cases k <;> rfl
  | group _ ih =>
    rw [List.cons_append, openCount?, List.append_assoc, ih]
    rfl

end PanelLayout
