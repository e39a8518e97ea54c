import DocHarvest.Proofs.Trace

/-!
# How computations end

A computation settles a condition (`Settles`) if it ends well just when the condition holds. Two
computations side by side end alike (`EndsAlike`) if both fail with the same fault or both end well
with results that are related; the rules follow the steps that the two take together. The results of
two runs over one list go along it (`Along`).
-/
namespace DocHarvest

/-- The computation ends well if the condition holds, with a result of the one kind, and else with a
fault of the other. -/
inductive Settles {α : Type} (P : Prop) (F : Fault → Prop) (Q : α → Prop) : Except Fault α → Prop
  | ok {a : α} (hP : P) (ha : Q a) : Settles P F Q (.ok a)
  | error {e : Fault} (hP : ¬P) (he : F e) : Settles P F Q (.error e)

namespace Settles

variable {α β : Type} {P R : Prop} {F : Fault → Prop} {Q : α → Prop} {x : Except Fault α}

theorem congr (h : Settles P F Q x) (hPR : P ↔ R) : Settles R F Q x := by
  cases h with
  | ok hP ha => exact .ok (hPR.mp hP) ha
  | error hP he => exact .error (fun hR => hP (hPR.mpr hR)) he

theorem bind {S : β → Prop} {f : α → Except Fault β} (hx : Settles P F Q x)
    (hf : ∀ a, Q a → Settles R F S (f a)) : Settles (P ∧ R) F S (x >>= f) := by
  cases hx with
  | ok hP ha => exact (hf _ ha).congr (by simp [hP])
  | error hP he => exact .error (fun h => hP h.1) he

/-- A last step that cannot fail. -/
theorem map {S : β → Prop} {f : α → Except Fault β} (hx : Settles P F Q x)
    (hf : ∀ a, Q a → ∃ b, f a = .ok b ∧ S b) : Settles P F S (x >>= f) := by
  have hlast : ∀ a, Q a → Settles True F S (f a) := by
    intro a ha
    obtain ⟨b, hb, hS⟩ := hf a ha
    rw [hb]
    exact .ok trivial hS
  exact (hx.bind hlast).congr (by simp)

theorem of_ok {a : α} (h : Settles P F Q x) (hx : x = .ok a) : P ∧ Q a := by
  cases h with
  | ok hP ha =>
    cases hx
    exact ⟨hP, ha⟩
  | error hP he => cases hx

theorem of_error {e : Fault} (h : Settles P F Q x) (hx : x = .error e) : ¬P ∧ F e := by
  cases h with
  | ok hP ha => cases hx
  | error hP he =>
    cases hx
    exact ⟨hP, he⟩

theorem returns_iff (h : Settles P F Q x) : (∃ a, x = .ok a ∧ Q a) ↔ P := by
  cases h with
  | ok hP ha => exact ⟨fun _ => hP, fun _ => ⟨_, rfl, ha⟩⟩
  | error hP he => simp [hP]

theorem fails_iff (h : Settles P F Q x) : (∃ e, x = .error e ∧ F e) ↔ ¬P := by
  cases h with
  | ok hP ha => simp [hP]
  | error hP he => exact ⟨fun _ => hP, fun _ => ⟨_, rfl, he⟩⟩

end Settles

inductive EndsAlike {α β : Type} (R : α → β → Prop) : Except Fault α → Except Fault β → Prop
  | ok {a : α} {b : β} (h : R a b) : EndsAlike R (.ok a) (.ok b)
  | error (e : Fault) : EndsAlike R (.error e) (.error e)

namespace EndsAlike

variable {α β γ δ : Type} {R S : α → β → Prop} {x : Except Fault α} {y : Except Fault β}

theorem refl {R : α → α → Prop} (hR : ∀ a, R a a) (x : Except Fault α) : EndsAlike R x x := by
  cases x with
  | ok a => exact .ok (hR a)
  | error e => exact .error e

theorem of_eq {x y : Except Fault α} (h : x = y) : EndsAlike Eq x y := by
  rw [h]
  exact refl (fun _ => rfl) y

theorem eq {x y : Except Fault α} (h : EndsAlike Eq x y) : x = y := by
  cases h with
  | ok h => rw [h]
  | error e => rfl

theorem imp (h : EndsAlike R x y) (hRS : ∀ a b, R a b → S a b) : EndsAlike S x y := by
  cases h with
  | ok h => exact .ok (hRS _ _ h)
  | error e => exact .error e

theorem bind {T : γ → δ → Prop} {f : α → Except Fault γ} {g : β → Except Fault δ}
    (h : EndsAlike R x y) (hfg : ∀ a b, R a b → EndsAlike T (f a) (g b)) :
    EndsAlike T (x >>= f) (y >>= g) := by
  cases h with
  | ok h => exact hfg _ _ h
  | error e => exact .error e

theorem mapM {T : γ → δ → Prop} {f : γ → Except Fault α} {g : δ → Except Fault β}
    (hfg : ∀ c d, T c d → EndsAlike R (f c) (g d)) {cs : List γ} {ds : List δ}
    (h : List.Forall₂ T cs ds) : EndsAlike (List.Forall₂ R) (cs.mapM f) (ds.mapM g) := by
  induction h with
  | nil => exact .ok .nil
  | cons hcd _ ih =>
    rw [List.mapM_cons, List.mapM_cons]
    refine (hfg _ _ hcd).bind fun a b hab => ?_
    exact ih.bind fun as bs habs => .ok (.cons hab habs)

end EndsAlike

/-- Two lists that go along a third one, with a relation at each place. -/
inductive Along {ι α β : Type} (R : ι → α → β → Prop) : List ι → List α → List β → Prop
  | nil : Along R [] [] []
  | cons {i : ι} {a : α} {b : β} {is : List ι} {as : List α} {bs : List β} (h : R i a b)
      (rest : Along R is as bs) : Along R (i :: is) (a :: as) (b :: bs)

namespace Along

variable {ι α β : Type} {R S : ι → α → β → Prop} {is js : List ι} {as cs : List α} {bs ds : List β}

theorem imp (h : Along R is as bs) (hRS : ∀ i a b, R i a b → S i a b) : Along S is as bs := by
  induction h with
  | nil => exact .nil
  | cons h _ ih => exact .cons (hRS _ _ _ h) ih

theorem append (h : Along R is as bs) (h' : Along R js cs ds) :
    Along R (is ++ js) (as ++ cs) (bs ++ ds) := by
  induction h with
  | nil => exact h'
  | cons h _ ih => exact .cons h ih

theorem flatten {κ : Type} {ks : List κ} {parts : κ → List ι} {ass : List (List α)}
    {bss : List (List β)} (h : Along (fun k => Along R (parts k)) ks ass bss) :
    Along R (ks.flatMap parts) ass.flatten bss.flatten := by
  induction h with
  | nil => exact .nil
  | cons h _ ih =>
    rw [List.flatMap_cons, List.flatten_cons, List.flatten_cons]
    exact h.append ih

theorem forall₂ {T : α → β → Prop} (h : Along R is as bs) (hRT : ∀ i a b, R i a b → T a b) :
    List.Forall₂ T as bs := by
  induction h with
  | nil => exact .nil
  | cons h _ ih => exact .cons (hRT _ _ _ h) ih

theorem eq {R : ι → α → α → Prop} {as bs : List α} (h : Along R is as bs)
    (hR : ∀ i a b, R i a b → a = b) : as = bs := by
  have hall := h.forall₂ hR
  rwa [List.forall₂_eq_eq_eq] at hall

end Along

theorem EndsAlike.along {ι α β : Type} {R : ι → α → β → Prop} {f : ι → Except Fault α}
    {g : ι → Except Fault β} {is : List ι} (h : ∀ i ∈ is, EndsAlike (R i) (f i) (g i)) :
    EndsAlike (Along R is) (is.mapM f) (is.mapM g) := by
  induction is with
  | nil => exact .ok .nil
  | cons i is ih =>
    obtain ⟨hi, his⟩ := List.forall_mem_cons.mp h
    rw [List.mapM_cons, List.mapM_cons]
    refine hi.bind fun a b hab => ?_
    exact (ih his).bind fun as bs habs => .ok (.cons hab habs)

end DocHarvest
