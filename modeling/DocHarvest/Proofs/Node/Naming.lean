import DocHarvest.Node.Name
import DocHarvest.Proofs.Trace
import Mathlib.Data.Set.List

/-!
# Which nodes have a dotted name

In a well-typed tree a node has a name if its chain of bases ends at an identifier or an access step
(`Node.isNamable`); for any other node it is the end of the chain that has none. `TakesNames` says
which nodes a computation names, in order: the first one without a name is its fault, and if there
is none it ends well. The rules for it follow the steps of a computation.
-/
namespace DocHarvest

def Datum.isText (d : Datum) : Bool := d.text?.isSome

theorem Datum.isText_iff {d : Datum} : d.isText = true ↔ ∃ s, d = .text s := by
  cases d <;> simp [isText, text?]

namespace Node

/-- An access step whose name is a text. -/
def isStep : Node → Bool
  | access name => name.isText
  | _ => false

def isParam : Node → Bool
  | param _ _ => true
  | _ => false

def isBlock : Node → Bool
  | block _ => true
  | _ => false

mutual

/-- Text fields hold texts, values have access steps, functions have parameters, and the bodies of
functions and classes are blocks. Flags may be anything. -/
def isWellTyped : Node → Bool
  | comment text => text.isText
  | literal v => v.isText
  | this => true
  | access name => name.isText
  | value base steps => isWellTyped base && steps.all isStep
  | obj entries => allWellTyped entries
  | arr items => allWellTyped items
  | param name _ => isWellTyped name
  | block statements => allWellTyped statements
  | code params body _ =>
    params.all isParam && allWellTyped params && body.isBlock && isWellTyped body
  | assign target v => isWellTyped target && isWellTyped v
  | classDecl name parent body =>
    optionWellTyped name && optionWellTyped parent && body.isBlock && isWellTyped body
  | call callee args => isWellTyped callee && allWellTyped args

def allWellTyped : List Node → Bool
  | [] => true
  | n :: ns => isWellTyped n && allWellTyped ns

def optionWellTyped : Option Node → Bool
  | none => true
  | some n => isWellTyped n

end

theorem allWellTyped_iff {ns : List Node} :
    allWellTyped ns = true ↔ ∀ n ∈ ns, n.isWellTyped = true := by
  induction ns with
  | nil => simp [allWellTyped]
  | cons n ns ih => simp [allWellTyped, ih]

theorem eq_block_of_isBlock {n : Node} (h : n.isBlock = true) : ∃ ss, n = block ss := by
  cases n with
  | block ss => exact ⟨ss, rfl⟩
  | _ => cases h

theorem eq_param_of_isParam {n : Node} (h : n.isParam = true) :
    ∃ name splat, n = param name splat := by
  cases n with
  | param name splat => exact ⟨name, splat, rfl⟩
  | _ => cases h

theorem isWellTyped_block {ss : List Node} :
    (block ss).isWellTyped = true ↔ ∀ n ∈ ss, n.isWellTyped = true := allWellTyped_iff

theorem isWellTyped_call {callee : Node} {args : List Node} :
    (call callee args).isWellTyped = true ↔
      callee.isWellTyped = true ∧ ∀ n ∈ args, n.isWellTyped = true := by
  rw [isWellTyped, Bool.and_eq_true, allWellTyped_iff]

theorem isWellTyped_assign {target v : Node} :
    (assign target v).isWellTyped = true ↔ target.isWellTyped = true ∧ v.isWellTyped = true := by
  rw [isWellTyped, Bool.and_eq_true]

theorem isWellTyped_value {base : Node} {steps : List Node} :
    (value base steps).isWellTyped = true ↔
      base.isWellTyped = true ∧ ∀ step ∈ steps, step.isStep = true := by
  rw [isWellTyped, Bool.and_eq_true, List.all_eq_true]

theorem statements_of_isWellTyped {body : Node} (hblock : body.isBlock = true)
    (h : body.isWellTyped = true) :
    ∃ ss, body = block ss ∧ ∀ n ∈ ss, n.isWellTyped = true := by
  obtain ⟨ss, rfl⟩ := eq_block_of_isBlock hblock
  exact ⟨ss, rfl, isWellTyped_block.mp h⟩

theorem code_of_isWellTyped {params : List Node} {body : Node} {bound : Datum}
    (h : (code params body bound).isWellTyped = true) :
    (∀ p ∈ params, ∃ name splat, p = param name splat ∧ name.isWellTyped = true) ∧
      ∃ ss, body = block ss ∧ ∀ n ∈ ss, n.isWellTyped = true := by
  simp only [isWellTyped, Bool.and_eq_true, List.all_eq_true, allWellTyped_iff] at h
  obtain ⟨⟨⟨hparam, hparams⟩, hblock⟩, hbody⟩ := h
  refine ⟨?_, statements_of_isWellTyped hblock hbody⟩
  intro p hp
  obtain ⟨name, splat, rfl⟩ := eq_param_of_isParam (hparam p hp)
  have hname := hparams _ hp
  rw [isWellTyped] at hname
  exact ⟨name, splat, rfl, hname⟩

theorem optionWellTyped_iff {o : Option Node} :
    optionWellTyped o = true ↔ ∀ n ∈ o, n.isWellTyped = true := by
  cases o <;> simp [optionWellTyped]

theorem classDecl_of_isWellTyped {name parent : Option Node} {body : Node}
    (h : (classDecl name parent body).isWellTyped = true) :
    (∀ n ∈ name, n.isWellTyped = true) ∧ (∀ n ∈ parent, n.isWellTyped = true) ∧
      ∃ ss, body = block ss ∧ ∀ n ∈ ss, n.isWellTyped = true := by
  simp only [isWellTyped, Bool.and_eq_true, optionWellTyped_iff] at h
  obtain ⟨⟨⟨hname, hparent⟩, hblock⟩, hbody⟩ := h
  exact ⟨hname, hparent, statements_of_isWellTyped hblock hbody⟩

theorem isWellTyped_unwrap {n : Node} (h : n.isWellTyped = true) :
    n.unwrap.isWellTyped = true := by
  unfold unwrap
  split
  · exact (isWellTyped_value.mp h).1
  · exact h

/-- The end of a node's chain of bases. -/
def nameRoot : Node → Node
  | value base _ => base.nameRoot
  | n => n

/-- Whether the chain of bases ends at an identifier or an access step. -/
def isNamable (n : Node) : Bool :=
  match n.nameRoot with
  | literal _ | this | access _ => true
  | _ => false

theorem isNamable_value (base : Node) (steps : List Node) :
    (value base steps).isNamable = base.isNamable := rfl

theorem isNamable_of_literal? {n : Node} {d : Datum} (h : n.literal? = some d) :
    n.isNamable = true := by
  cases n with
  | literal v => rfl
  | this => rfl
  | _ => cases h

theorem isText_of_literal? {n : Node} {d : Datum} (h : n.isWellTyped = true)
    (hd : n.literal? = some d) : d.isText = true := by
  cases n with
  | literal v =>
    cases hd
    exact h
  | this =>
    cases hd
    rfl
  | _ => cases hd

theorem qualifiedName_of_not_isNamable {n : Node} (h : n.isNamable = false) :
    n.qualifiedName = .error (.unnamable n.nameRoot.typeName) := by
  fun_induction qualifiedName n with
  | case1 v => cases h
  | case2 => cases h
  | case3 name => cases h
  | case4 base steps ih =>
    rw [ih h]
    rfl
  | case5 n =>
    rw [nameRoot]
    assumption

end Node

/-- How a computation ends that takes the names of some nodes one after another: with a result that
has a property if all of them have names, else at the first that has none. -/
inductive TakesNames {α : Type} : List Node → Except Fault α → (α → Prop) → Prop
  | named {ns : List Node} {a : α} {P : α → Prop} (hall : ∀ n ∈ ns, n.isNamable = true)
      (ha : P a) : TakesNames ns (.ok a) P
  | unnamed {before rest : List Node} {n : Node} {P : α → Prop}
      (hbefore : ∀ m ∈ before, m.isNamable = true) (hn : n.isNamable = false) :
      TakesNames (before ++ n :: rest) (.error (.unnamable n.nameRoot.typeName)) P

namespace TakesNames

variable {α β : Type} {ns ms : List Node} {x : Except Fault α} {P Q : α → Prop}

theorem pure {a : α} (ha : P a) : TakesNames [] (.ok a) P := named (by simp) ha

theorem done (a : α) : TakesNames [] (.ok a) fun _ => True := pure trivial

theorem bind {f : α → Except Fault β} {R : β → Prop} (hx : TakesNames ns x P)
    (hf : ∀ a, P a → TakesNames ms (f a) R) : TakesNames (ns ++ ms) (x >>= f) R := by
  cases hx with
  | unnamed hbefore hn =>
    rw [List.append_assoc, List.cons_append]
    exact unnamed hbefore hn
  | @named _ a _ hall ha =>
    change TakesNames (ns ++ ms) (f a) R
    have hfa := hf a ha
    generalize f a = y at hfa ⊢
    cases hfa with
    | named hall' hb => exact named (List.forall_mem_append.mpr ⟨hall, hall'⟩) hb
    | unnamed hbefore hn =>
      rw [← List.append_assoc]
      exact unnamed (List.forall_mem_append.mpr ⟨hall, hbefore⟩) hn

/-- A step that takes no more names. -/
theorem bind_nil {f : α → Except Fault β} {R : β → Prop} (hx : TakesNames ns x P)
    (hf : ∀ a, P a → TakesNames [] (f a) R) : TakesNames ns (x >>= f) R := by
  rw [← List.append_nil ns]
  exact hx.bind hf

theorem mapM {names : β → List Node} {f : β → Except Fault α} {bs : List β}
    (h : ∀ b ∈ bs, TakesNames (names b) (f b) P) :
    TakesNames (bs.flatMap names) (bs.mapM f) fun as => ∀ a ∈ as, P a := by
  induction bs with
  | nil => exact pure (by simp)
  | cons b bs ih =>
    obtain ⟨hb, hbs⟩ := List.forall_mem_cons.mp h
    rw [List.mapM_cons, List.flatMap_cons]
    refine hb.bind fun a ha => ?_
    exact (ih hbs).bind_nil fun as has => pure (List.forall_mem_cons.mpr ⟨ha, has⟩)

theorem imp (h : TakesNames ns x P) (hPQ : ∀ a, x = .ok a → P a → Q a) : TakesNames ns x Q := by
  cases h with
  | named hall ha => exact named hall (hPQ _ rfl ha)
  | unnamed hbefore hn => exact unnamed hbefore hn

theorem forget (h : TakesNames ns x P) : TakesNames ns x fun _ => True :=
  h.imp fun _ _ _ => trivial

theorem of_ok {a : α} (h : TakesNames ns x P) (ha : x = .ok a) : P a := by
  cases h with
  | named hall hP =>
    cases ha
    exact hP
  | unnamed hbefore hn => cases ha

/-- Nodes that are known to have names need not be counted. -/
theorem of_isNamable (h : TakesNames ns x P) (hns : ∀ n ∈ ns, n.isNamable = true) :
    TakesNames [] x P := by
  cases h with
  | named hall ha => exact pure ha
  | @unnamed _ _ n _ hbefore hn => exact absurd (hns n (by simp)) (by simp [hn])

theorem returns_iff (h : TakesNames ns x P) :
    (∃ a, x = .ok a) ↔ ∀ n ∈ ns, n.isNamable = true := by
  cases h with
  | named hall ha => exact ⟨fun _ => hall, fun _ => ⟨_, rfl⟩⟩
  | @unnamed _ _ n _ hbefore hn =>
    constructor
    · rintro ⟨a, ha⟩
      cases ha
    · intro hall
      exact absurd (hall n (by simp)) (by simp [hn])

theorem fails_iff (h : TakesNames ns x P) :
    (∃ e, x = .error e) ↔ ∃ n ∈ ns, n.isNamable = false := by
  cases h with
  | named hall ha =>
    constructor
    · rintro ⟨e, he⟩
      cases he
    · rintro ⟨n, hn, hno⟩
      exact absurd (hall n hn) (by simp [hno])
  | @unnamed _ _ n _ hbefore hn => exact ⟨fun _ => ⟨n, by simp, hn⟩, fun _ => ⟨_, rfl⟩⟩

theorem fault_eq (h : TakesNames ns x P) {e : Fault} (he : x = .error e) :
    ∃ n ∈ ns, n.isNamable = false ∧ e = .unnamable n.nameRoot.typeName := by
  cases h with
  | named hall ha => cases he
  | @unnamed _ _ n _ hbefore hn =>
    cases he
    exact ⟨n, by simp, hn, rfl⟩

end TakesNames

namespace Node

theorem joinTexts_some (sep : String) (texts : List String) :
    joinTexts sep (texts.map some) = .ok (sep.intercalate texts) := by
  have hall : (texts.map some).all Option.isSome = true := by simp
  rw [joinTexts, if_pos hall, List.filterMap_map]
  simp

theorem joinTexts_isText {ds : List Datum} (sep : String) (h : ∀ d ∈ ds, d.isText = true) :
    ∃ s, joinTexts sep (ds.map Datum.text?) = .ok s := by
  have hall : (ds.map Datum.text?).all Option.isSome = true := by
    simpa [Datum.isText] using h
  exact ⟨_, by rw [joinTexts, if_pos hall]⟩

/-- The access steps with given names. -/
def pathSteps (names : List String) : List Node := names.map fun s => access (.text s)

theorem exists_access_of_isStep {n : Node} (h : n.isStep = true) :
    ∃ s, access (.text s) = n := by
  cases n with
  | access name =>
    obtain ⟨s, rfl⟩ := Datum.isText_iff.mp h
    exact ⟨s, rfl⟩
  | _ => cases h

theorem exists_pathSteps {steps : List Node} (h : ∀ step ∈ steps, step.isStep = true) :
    ∃ names, pathSteps names = steps := by
  change steps ∈ Set.range (List.map fun s => access (.text s))
  rw [Set.range_list_map]
  exact fun step hstep => exists_access_of_isStep (h step hstep)

theorem mapM_stepName_pathSteps (names : List String) :
    (pathSteps names).mapM stepName = .ok (names.map some) :=
  Fault.mapM_map_ok fun _ _ => rfl

theorem mapM_stepName {steps : List Node} (h : ∀ step ∈ steps, step.isStep = true) :
    ∃ names : List String, steps.mapM stepName = .ok (names.map some) := by
  obtain ⟨names, rfl⟩ := exists_pathSteps h
  exact ⟨names, mapM_stepName_pathSteps names⟩

theorem qualifiedName_path {n : Node} {first : String} (h : n.qualifiedName = .ok (.text first))
    (names : List String) :
    (value n (pathSteps names)).qualifiedName = .ok (.text (".".intercalate (first :: names))) := by
  have hnames := mapM_stepName_pathSteps names
  have hjoin := joinTexts_some "." (first :: names)
  exact Fault.bind_eq_ok_iff.mpr ⟨_, h, Fault.bind_eq_ok_iff.mpr ⟨_, hnames,
    Fault.bind_eq_ok_iff.mpr ⟨_, hjoin, rfl⟩⟩⟩

theorem qualifiedName_takesNames {n : Node} (h : n.isWellTyped = true) :
    TakesNames [n] n.qualifiedName fun d => d.isText = true := by
  cases hn : n.isNamable with
  | false =>
    rw [qualifiedName_of_not_isNamable hn]
    change TakesNames ([] ++ [n]) _ _
    exact .unnamed (by simp) hn
  | true =>
    suffices hname : ∃ s, n.qualifiedName = .ok (.text s) by
      obtain ⟨s, hs⟩ := hname
      rw [hs]
      exact .named (by simpa using hn) rfl
    fun_induction qualifiedName n with
    | case1 v =>
      obtain ⟨s, rfl⟩ := Datum.isText_iff.mp h
      exact ⟨s, rfl⟩
    | case2 => exact ⟨"this", rfl⟩
    | case3 name =>
      obtain ⟨s, rfl⟩ := Datum.isText_iff.mp h
      exact ⟨s, rfl⟩
    | case4 base steps ih =>
      obtain ⟨hbase, hsteps⟩ := isWellTyped_value.mp h
      obtain ⟨first, hfirst⟩ := ih hbase hn
      obtain ⟨names, rfl⟩ := exists_pathSteps hsteps
      exact ⟨".".intercalate (first :: names), qualifiedName_path hfirst names⟩
    | case5 n => cases n <;> simp_all [isNamable, nameRoot]

theorem localName_takesNames {n : Node} (h : n.isWellTyped = true) :
    TakesNames [] n.localName fun d => d.isText = true := by
  unfold localName
  dsimp only
  split
  · next d hd =>
    refine (qualifiedName_takesNames h).of_isNamable ?_
    have hroot := isNamable_of_literal? hd
    cases n <;> simpa [isNamable_value] using hroot
  · exact .pure rfl

theorem memberName_isText {n : Node} (h : n.isWellTyped = true) : n.memberName.isText = true := by
  have hliteral : ∀ m : Node, m.isWellTyped = true →
      (m.literal?.getD (.text "")).isText = true := by
    intro m hm
    cases hd : m.literal? with
    | none => rfl
    | some d => exact isText_of_literal? hm hd
  cases n with
  | value base steps => exact hliteral base (isWellTyped_value.mp h).1
  | _ => exact hliteral _ h

end Node

end DocHarvest
