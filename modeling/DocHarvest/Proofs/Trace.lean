import DocHarvest.Trace
import Mathlib.Data.List.Forall2

/-!
# What a computation went through

The result of one that ends well is taken apart one step at a time (`Traced.result_bind_eq_ok_iff`),
and the records of a run over a list are those of its members in order (`Traced.mapM_of_ok`). Of
what kind the records are is seen step by step too, however the computation ends
(`Traced.LogsOnly.bind`).
-/
namespace DocHarvest

theorem Fault.bind_eq_ok_iff {α β : Type} {x : Except Fault α} {f : α → Except Fault β} {b : β} :
    x >>= f = .ok b ↔ ∃ a, x = .ok a ∧ f a = .ok b := by
  cases x with
  | error e => simp [bind, Except.bind]
  | ok a => simp [bind, Except.bind]

theorem Fault.map_eq_ok_iff {α β : Type} {x : Except Fault α} {f : α → β} {b : β} :
    x.map f = .ok b ↔ ∃ a, x = .ok a ∧ f a = b := by
  cases x with
  | error e => simp [Except.map]
  | ok a => simp [Except.map]

/-- A run over a list that ends well has a result for each member. -/
theorem Fault.mapM_of_ok {α β : Type} {f : α → Except Fault β} {as : List α} {bs : List β}
    (h : as.mapM f = .ok bs) : List.Forall₂ (fun a b => f a = .ok b) as bs := by
  induction as generalizing bs with
  | nil =>
    cases h
    exact .nil
  | cons a as ih =>
    rw [List.mapM_cons] at h
    obtain ⟨b, hb, h⟩ := Fault.bind_eq_ok_iff.mp h
    obtain ⟨rest, hrest, h⟩ := Fault.bind_eq_ok_iff.mp h
    cases h
    exact .cons hb (ih hrest)

theorem Fault.mem_of_mapM_ok {α β : Type} {f : α → Except Fault β} {as : List α} {bs : List β}
    (h : as.mapM f = .ok bs) {b : β} (hb : b ∈ bs) : ∃ a ∈ as, f a = .ok b := by
  have hall := Fault.mapM_of_ok h
  clear h
  induction hall with
  | nil => cases hb
  | @cons a c as bs hac _ ih =>
    rcases List.mem_cons.mp hb with rfl | hb
    · exact ⟨a, List.mem_cons_self, hac⟩
    · obtain ⟨x, hx, hxb⟩ := ih hb
      exact ⟨x, List.mem_cons_of_mem a hx, hxb⟩

theorem Fault.mapM_map_ok {α β γ : Type} {f : β → Except Fault γ} {g : α → β} {k : α → γ}
    {as : List α} (h : ∀ a ∈ as, f (g a) = .ok (k a)) : (as.map g).mapM f = .ok (as.map k) := by
  induction as with
  | nil => rfl
  | cons a as ih =>
    obtain ⟨ha, has⟩ := List.forall_mem_cons.mp h
    rw [List.map_cons, List.mapM_cons, ha, ih has]
    rfl

namespace Traced

variable {α β : Type}

@[simp] theorem log_liftM (r : Except Fault α) : (liftM r : Traced α).log = [] := rfl

@[simp] theorem log_pure (a : α) : (pure a : Traced α).log = [] := rfl

@[simp] theorem log_fail (e : Fault) : (fail e : Traced α).log = [] := rfl

theorem result_bind_eq_ok_iff {x : Traced α} {f : α → Traced β} {b : β} :
    (x >>= f).result = .ok b ↔ ∃ a, x.result = .ok a ∧ (f a).result = .ok b := by
  rw [result_bind, Fault.bind_eq_ok_iff]

@[simp] theorem result_liftM (r : Except Fault α) : (liftM r : Traced α).result = r := rfl

theorem result_mapM (f : α → Traced β) (as : List α) :
    (as.mapM f).result = as.mapM fun a => (f a).result := by
  induction as with
  | nil => rfl
  | cons a as ih =>
    rw [List.mapM_cons, List.mapM_cons, result_bind]
    simp only [result_bind, result_pure, ih]
    rfl

theorem log_bind_of_ok {x : Traced α} {a : α} (h : x.result = .ok a) (f : α → Traced β) :
    (x >>= f).log = x.log ++ (f a).log := by
  simp only [bind, andThen, h]

/-- All records of a computation are of one kind. -/
def LogsOnly (P : Record → Prop) (x : Traced α) : Prop := ∀ r ∈ x.log, P r

variable {P : Record → Prop}

theorem logsOnly_pure (a : α) : LogsOnly P (pure a) := by simp [LogsOnly]

theorem logsOnly_liftM (x : Except Fault α) : LogsOnly P (liftM x) := by simp [LogsOnly]

theorem logsOnly_fail (e : Fault) : LogsOnly P (fail e : Traced α) := by simp [LogsOnly]

theorem LogsOnly.bind {x : Traced α} {f : α → Traced β} (hx : x.LogsOnly P)
    (hf : ∀ a, (f a).LogsOnly P) : (x >>= f).LogsOnly P := by
  intro r hr
  cases hres : x.result with
  | error e =>
    simp only [Bind.bind, andThen, hres] at hr
    exact hx r hr
  | ok a =>
    rw [log_bind_of_ok hres, List.mem_append] at hr
    exact hr.elim (hx r) (hf a r)

theorem logsOnly_mapM {f : α → Traced β} (hf : ∀ a, (f a).LogsOnly P) (as : List α) :
    (as.mapM f).LogsOnly P := by
  induction as with
  | nil => exact logsOnly_pure []
  | cons a as ih =>
    rw [List.mapM_cons]
    exact (hf a).bind fun _ => ih.bind fun _ => logsOnly_pure _

theorem mapM_of_ok {f : α → Traced β} {as : List α} {bs : List β}
    (h : (as.mapM f).result = .ok bs) :
    List.Forall₂ (fun a b => (f a).result = .ok b) as bs ∧
      (as.mapM f).log = as.flatMap fun a => (f a).log := by
  induction as generalizing bs with
  | nil =>
    rw [List.mapM_nil, result_pure] at h
    cases h
    exact ⟨.nil, rfl⟩
  | cons a as ih =>
    rw [List.mapM_cons] at h ⊢
    obtain ⟨b, hb, h⟩ := result_bind_eq_ok_iff.mp h
    obtain ⟨rest, hrest, h⟩ := result_bind_eq_ok_iff.mp h
    cases h
    obtain ⟨hall, hlog⟩ := ih hrest
    refine ⟨.cons hb hall, ?_⟩
    rw [log_bind_of_ok hb, log_bind_of_ok hrest, log_pure, List.append_nil, hlog,
      List.flatMap_cons]

/-- A run over a list that ends well, of steps of which each can only end in one way. -/
theorem mapM_eq_map {f : α → Traced β} {g : α → β} {P : α → Prop}
    (hstep : ∀ a b, (f a).result = .ok b → g a = b ∧ P a) {as : List α} {bs : List β}
    (h : (as.mapM f).result = .ok bs) : as.map g = bs ∧ ∀ a ∈ as, P a := by
  obtain ⟨hall, -⟩ := mapM_of_ok h
  clear h
  induction hall with
  | nil => exact ⟨rfl, by simp⟩
  | cons hb _ ih =>
    obtain ⟨hg, hP⟩ := hstep _ _ hb
    obtain ⟨hmap, hall⟩ := ih
    exact ⟨by rw [List.map_cons, hg, hmap], List.forall_mem_cons.mpr ⟨hP, hall⟩⟩

end Traced

end DocHarvest
