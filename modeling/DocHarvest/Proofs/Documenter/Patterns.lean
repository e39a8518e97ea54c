import DocHarvest.Proofs.Documenter.Failure
import DocHarvest.Proofs.Outcome

/-!
# Parameters that are patterns

A pattern is shown by its parts, and a wrapper around a name makes no difference to it. A wrapper
around an object, an array or an assignment is not looked through: such a parameter cannot be shown
(`Node.HasWrappedPart`), and no other pattern fails.
-/
namespace DocHarvest

namespace Node

/-- An identifier with a text, or the self reference. -/
inductive IsIdentifier : Node → Prop
  | literal (name : String) : IsIdentifier (.literal (.text name))
  | this : IsIdentifier .this

/-- The patterns of parameters. The default in an assignment may be anything. -/
inductive IsPattern : Node → Prop
  | identifier {n : Node} (h : n.IsIdentifier) : IsPattern n
  | path {base : Node} {steps : List Node} (h : base.IsIdentifier)
      (hsteps : ∀ step ∈ steps, step.isStep = true) : IsPattern (value base steps)
  | obj {entries : List Node} (h : ∀ n ∈ entries, IsPattern n) : IsPattern (obj entries)
  | arr {items : List Node} (h : ∀ n ∈ items, IsPattern n) : IsPattern (arr items)
  | assign {target : Node} (h : IsPattern target) (v : Node) : IsPattern (assign target v)
  | wrapper {n : Node} (h : IsPattern n) : IsPattern (value n [])

/-- A pattern with parts of its own. -/
def isComposite : Node → Bool
  | obj _ | arr _ | assign _ _ => true
  | _ => false

/-- Somewhere in a pattern a wrapper stands around a pattern with parts. -/
inductive HasWrappedPart : Node → Prop
  | here {n : Node} (h : n.isComposite = true) : HasWrappedPart (value n [])
  | wrapper {n : Node} (h : HasWrappedPart n) : HasWrappedPart (value n [])
  | entry {entries : List Node} {n : Node} (hn : n ∈ entries) (h : HasWrappedPart n) :
      HasWrappedPart (obj entries)
  | item {items : List Node} {n : Node} (hn : n ∈ items) (h : HasWrappedPart n) :
      HasWrappedPart (arr items)
  | target {target v : Node} (h : HasWrappedPart target) : HasWrappedPart (assign target v)

/-- A pattern in which one part takes a wrapper. -/
inductive RewrapsPart : Node → Node → Prop
  | here (p : Node) : RewrapsPart p (value p [])
  | wrapper {p p' : Node} (h : RewrapsPart p p') : RewrapsPart (value p []) (value p' [])
  | entry (before after : List Node) {p p' : Node} (h : RewrapsPart p p') :
      RewrapsPart (obj (before ++ p :: after)) (obj (before ++ p' :: after))
  | item (before after : List Node) {p p' : Node} (h : RewrapsPart p p') :
      RewrapsPart (arr (before ++ p :: after)) (arr (before ++ p' :: after))
  | target {p p' : Node} (h : RewrapsPart p p') (v : Node) :
      RewrapsPart (assign p v) (assign p' v)

theorem IsIdentifier.not_isComposite {n : Node} (h : n.IsIdentifier) : n.isComposite = false := by
  cases h <;> rfl

theorem IsIdentifier.not_hasWrappedPart {n : Node} (h : n.IsIdentifier) : ¬n.HasWrappedPart := by
  intro hw
  cases h <;> cases hw

theorem not_hasWrappedPart_wrapper_iff {n : Node} :
    ¬(value n []).HasWrappedPart ↔ n.isComposite = false ∧ ¬n.HasWrappedPart := by
  constructor
  · intro h
    refine ⟨?_, fun hw => h (.wrapper hw)⟩
    cases hn : n.isComposite with
    | false => rfl
    | true => exact absurd (.here hn) h
  · rintro ⟨hn, h⟩ hw
    cases hw with
    | here hc => simp [hn] at hc
    | wrapper hw => exact h hw

theorem IsIdentifier.not_hasWrappedPart_path {base : Node} (h : base.IsIdentifier)
    (steps : List Node) : ¬(value base steps).HasWrappedPart := by
  cases steps with
  | nil => exact not_hasWrappedPart_wrapper_iff.mpr ⟨h.not_isComposite, h.not_hasWrappedPart⟩
  | cons step steps =>
    intro hw
    cases hw

theorem not_hasWrappedPart_obj_iff {entries : List Node} :
    ¬(obj entries).HasWrappedPart ↔ ∀ n ∈ entries, ¬n.HasWrappedPart := by
  constructor
  · intro h n hn hw
    exact h (.entry hn hw)
  · intro h hw
    cases hw with
    | entry hn hw => exact h _ hn hw

theorem not_hasWrappedPart_arr_iff {items : List Node} :
    ¬(arr items).HasWrappedPart ↔ ∀ n ∈ items, ¬n.HasWrappedPart := by
  constructor
  · intro h n hn hw
    exact h (.item hn hw)
  · intro h hw
    cases hw with
    | item hn hw => exact h _ hn hw

theorem not_hasWrappedPart_assign_iff {target v : Node} :
    ¬(assign target v).HasWrappedPart ↔ ¬target.HasWrappedPart := by
  constructor
  · intro h hw
    exact h (.target hw)
  · intro h hw
    cases hw with
    | target hw => exact h hw

/-- A pattern with parts was asked for its name. -/
def PartsUnnamed (e : Fault) : Prop := ∃ n : Node, n.isComposite = true ∧ e = .unnamable n.typeName

/-- The pattern is shown as a text just if the condition holds. -/
abbrev Shown (P : Prop) (x : Except Fault Datum) : Prop :=
  Settles P PartsUnnamed (fun d => d.isText = true) x

theorem patternName_of_not_isComposite {n : Node} (h : n.isComposite = false) :
    n.patternName = n.qualifiedName := by
  cases n with
  | obj _ | arr _ | assign _ _ => cases h
  | _ => rfl

theorem joinTexts_singleton (sep name : String) : joinTexts sep [some name] = .ok name := by
  simpa using joinTexts_some sep [name]

theorem qualifiedName_wrapper (n : Node) :
    (value n []).qualifiedName = n.qualifiedName >>= fun d => do
      return .text (← joinTexts "." [d.text?]) := rfl

theorem qualifiedName_wrapper_of_text {n : Node} {name : String}
    (h : n.qualifiedName = .ok (.text name)) :
    (value n []).qualifiedName = .ok (.text name) := qualifiedName_path h []

theorem IsPattern.qualifiedName_settles {p : Node} (h : p.IsPattern) :
    Shown (p.isComposite = false ∧ ¬p.HasWrappedPart) p.qualifiedName := by
  induction h with
  | identifier h =>
    have hname := And.intro h.not_isComposite h.not_hasWrappedPart
    cases h with
    | literal name => exact .ok hname rfl
    | this => exact .ok hname rfl
  | @path base steps h hsteps =>
    have hname := h.not_hasWrappedPart_path steps
    have htyped : (value base steps).isWellTyped = true := by
      refine isWellTyped_value.mpr ⟨?_, hsteps⟩
      cases h <;> rfl
    have hnamable : (value base steps).isNamable = true := by
      cases h <;> rfl
    have htaken := qualifiedName_takesNames htyped
    obtain ⟨d, hd⟩ := htaken.returns_iff.mpr (by simpa using hnamable)
    rw [hd]
    exact .ok ⟨rfl, hname⟩ (htaken.of_ok hd)
  | obj _ _ | arr _ _ | assign _ _ _ =>
    exact .error (fun h => nomatch h.1) ⟨_, rfl, rfl⟩
  | @wrapper n _ ih =>
    have hiff : n.isComposite = false ∧ ¬n.HasWrappedPart ↔
        (value n []).isComposite = false ∧ ¬(value n []).HasWrappedPart := by
      rw [not_hasWrappedPart_wrapper_iff]
      simp [isComposite]
    rw [qualifiedName_wrapper]
    refine Settles.congr (ih.map fun d hd => ?_) hiff
    obtain ⟨name, rfl⟩ := Datum.isText_iff.mp hd
    have hjoin := joinTexts_singleton "." name
    exact ⟨.text name, Fault.bind_eq_ok_iff.mpr ⟨name, hjoin, rfl⟩, rfl⟩

theorem patternNames_settles {ns : List Node}
    (h : ∀ n ∈ ns, Shown (¬n.HasWrappedPart) n.patternName) :
    Settles (∀ n ∈ ns, ¬n.HasWrappedPart) PartsUnnamed (fun ds => ∀ d ∈ ds, d.isText = true)
      (patternNames ns) := by
  induction ns with
  | nil => exact .ok (by simp) (by simp)
  | cons n ns ih =>
    obtain ⟨hn, hns⟩ := List.forall_mem_cons.mp h
    rw [patternNames]
    have hiff := List.forall_mem_cons (p := fun m : Node => ¬m.HasWrappedPart) (a := n) (l := ns)
    refine Settles.congr (hn.bind fun d hd => ?_) hiff.symm
    exact (ih hns).map fun ds hds => ⟨d :: ds, rfl, List.forall_mem_cons.mpr ⟨hd, hds⟩⟩

theorem bracketed_settles {P : Prop} {x : Except Fault (List Datum)} (left right : String)
    (h : Settles P PartsUnnamed (fun ds => ∀ d ∈ ds, d.isText = true) x) :
    Shown P (x >>= fun ds => do
      return Datum.text (left ++ (← joinTexts ", " (ds.map Datum.text?)) ++ right)) := by
  refine h.map fun ds hds => ?_
  obtain ⟨joined, hjoined⟩ := joinTexts_isText ", " hds
  rw [hjoined]
  exact ⟨_, rfl, rfl⟩

theorem IsPattern.patternName_settles {p : Node} (h : p.IsPattern) :
    Shown (¬p.HasWrappedPart) p.patternName := by
  have hname := h.qualifiedName_settles
  induction h with
  | identifier h =>
    rw [patternName_of_not_isComposite h.not_isComposite]
    exact hname.congr (by simp [h.not_isComposite])
  | path _ _ | wrapper _ _ =>
    rw [patternName_of_not_isComposite rfl]
    exact hname.congr (by simp [isComposite])
  | obj hentries ih =>
    have hall := patternNames_settles fun n hn => ih n hn (hentries n hn).qualifiedName_settles
    exact (bracketed_settles _ _ hall).congr not_hasWrappedPart_obj_iff.symm
  | arr hitems ih =>
    have hall := patternNames_settles fun n hn => ih n hn (hitems n hn).qualifiedName_settles
    exact (bracketed_settles _ _ hall).congr not_hasWrappedPart_arr_iff.symm
  | assign htarget v ih =>
    exact (ih htarget.qualifiedName_settles).congr not_hasWrappedPart_assign_iff.symm

theorem IsPattern.of_wrapper {n : Node} (h : (value n []).IsPattern) : n.IsPattern := by
  cases h with
  | identifier h => cases h
  | path h _ => exact .identifier h
  | wrapper h => exact h

theorem IsPattern.of_entry {entries : List Node} {n : Node} (h : (Node.obj entries).IsPattern)
    (hn : n ∈ entries) : n.IsPattern := by
  cases h with
  | identifier h => cases h
  | obj h => exact h n hn

theorem IsPattern.of_item {items : List Node} {n : Node} (h : (Node.arr items).IsPattern)
    (hn : n ∈ items) : n.IsPattern := by
  cases h with
  | identifier h => cases h
  | arr h => exact h n hn

theorem IsPattern.of_target {target v : Node} (h : (Node.assign target v).IsPattern) :
    target.IsPattern := by
  cases h with
  | identifier h => cases h
  | assign h _ => exact h

theorem patternNames_replace {n n' : Node} (h : n'.patternName = n.patternName)
    (before after : List Node) :
    patternNames (before ++ n' :: after) = patternNames (before ++ n :: after) := by
  induction before with
  | nil => simp only [List.nil_append, patternNames, h]
  | cons m before ih => simp only [List.cons_append, patternNames, ih]

/-- A pattern with parts keeps them, or stands as a whole in the new wrapper. -/
theorem RewrapsPart.not_isComposite {p p' : Node} (h : RewrapsPart p p')
    (hp' : p'.isComposite = false) (hno : ¬p'.HasWrappedPart) : p.isComposite = false := by
  cases h with
  | here => exact (not_hasWrappedPart_wrapper_iff.mp hno).1
  | wrapper => rfl
  | entry | item | target => cases hp'

theorem IsPattern.patternName_rewrap {p p' : Node} (hp : p.IsPattern) (h : RewrapsPart p p')
    (hno : ¬p'.HasWrappedPart) : p'.patternName = p.patternName := by
  induction h with
  | here p =>
    have hparts := not_hasWrappedPart_wrapper_iff.mp hno
    obtain ⟨d, hd, htext⟩ := hp.qualifiedName_settles.returns_iff.mpr hparts
    obtain ⟨name, rfl⟩ := Datum.isText_iff.mp htext
    rw [patternName_of_not_isComposite rfl, patternName_of_not_isComposite hparts.1, hd,
      qualifiedName_wrapper_of_text hd]
  | @wrapper p p' h ih =>
    obtain ⟨hp', hno⟩ := not_hasWrappedPart_wrapper_iff.mp hno
    have hname := ih hp.of_wrapper hno
    rw [patternName_of_not_isComposite hp',
      patternName_of_not_isComposite (h.not_isComposite hp' hno)] at hname
    rw [patternName_of_not_isComposite rfl, patternName_of_not_isComposite rfl,
      qualifiedName_wrapper, qualifiedName_wrapper, hname]
  | @entry before after p p' h ih =>
    have hname := ih (hp.of_entry (by simp)) (not_hasWrappedPart_obj_iff.mp hno p' (by simp))
    simp only [patternName, patternNames_replace hname]
  | @item before after p p' h ih =>
    have hname := ih (hp.of_item (by simp)) (not_hasWrappedPart_arr_iff.mp hno p' (by simp))
    simp only [patternName, patternNames_replace hname]
  | @target p p' h v ih =>
    exact ih hp.of_target (not_hasWrappedPart_assign_iff.mp hno)

theorem RewrapsPart.not_isShorthand {p p' : Node} (h : RewrapsPart p p') :
    p'.isShorthand = false := by
  cases h with
  | here p => cases p <;> rfl
  | @wrapper p p' _ => cases p' <;> rfl
  | entry | item | target => rfl

end Node

namespace Documenter

open Node

variable {s : DocSettings} {splat : Datum}

theorem eq_of_isShorthand {p : Node} (h : p.IsPattern) (hshort : p.isShorthand = true) :
    ∃ name steps, p = .value .this (.access (.text name) :: steps) ∧
      ∀ step ∈ steps, step.isStep = true := by
  cases h with
  | identifier h => cases h <;> cases hshort
  | obj _ | arr _ | assign _ _ => cases hshort
  | @wrapper n _ => cases n <;> cases hshort
  | @path base steps h hsteps =>
    cases h with
    | literal name => cases hshort
    | this =>
      cases steps with
      | nil => cases hshort
      | cons step steps =>
        obtain ⟨hstep, hrest⟩ := List.forall_mem_cons.mp hsteps
        cases step with
        | access d =>
          obtain ⟨name, rfl⟩ := Datum.isText_iff.mp hstep
          exact ⟨name, steps, rfl, hrest⟩
        | _ => cases hstep

/-- The suffix of a variadic parameter goes behind the text of its pattern. -/
theorem withSuffix_of_text (hs : splat.isPresent = true → s.splatSuffix.isText = true)
    (text : String) :
    ∃ suffix, (if splat.isPresent then (Datum.text text).plus s.splatSuffix
      else return .text text) = .ok (.text (text ++ suffix)) := by
  cases hsplat : splat.isPresent with
  | false => exact ⟨"", by rw [String.append_empty]; rfl⟩
  | true =>
    obtain ⟨suffix, hsuffix⟩ := Datum.isText_iff.mp (hs hsplat)
    exact ⟨suffix, by rw [hsuffix]; rfl⟩

theorem renderParam_settles {p : Node} (h : p.IsPattern)
    (hs : splat.isPresent = true → s.splatSuffix.isText = true) :
    Shown (¬p.HasWrappedPart) (renderParam s (.param p splat)) := by
  cases hshort : p.isShorthand with
  | true =>
    obtain ⟨name, steps, rfl, -⟩ := eq_of_isShorthand h hshort
    have hname := IsIdentifier.this.not_hasWrappedPart_path (.access (.text name) :: steps)
    exact .ok hname rfl
  | false =>
    rw [renderParam_of_not_isShorthand s splat hshort]
    refine h.patternName_settles.map fun d hd => ?_
    obtain ⟨text, rfl⟩ := Datum.isText_iff.mp hd
    obtain ⟨suffix, hsuffix⟩ := withSuffix_of_text hs text
    exact ⟨.text (text ++ suffix), hsuffix, rfl⟩

/-- A shorthand in a wrapper is shown with the self reference spelled out. -/
theorem renderParam_wrapped_shorthand {p : Node} (h : p.IsPattern) (hshort : p.isShorthand = true)
    (hs : splat.isPresent = true → s.splatSuffix.isText = true) :
    renderParam s (.param (.value p []) splat) ≠ renderParam s (.param p splat) := by
  obtain ⟨name, steps, rfl, hsteps⟩ := eq_of_isShorthand h hshort
  have hall : ∀ step ∈ Node.access (.text name) :: steps, step.isStep = true :=
    List.forall_mem_cons.mpr ⟨rfl, hsteps⟩
  obtain ⟨bound, hbound⟩ := (boundName_takesNames hall).returns_iff.mpr (by simp)
  obtain ⟨rest, -, -, hname⟩ := boundName_of_ok hbound
  rw [if_neg (by simp)] at hname
  obtain ⟨suffix, hsuffix⟩ := withSuffix_of_text hs ("this" ++ "." ++ rest)
  rw [renderParam_of_not_isShorthand s splat rfl, patternName_of_not_isComposite rfl,
    qualifiedName_wrapper_of_text hname]
  intro heq
  have hfirst := hsuffix.symm.trans heq
  have hchars := congrArg String.toList (Datum.text.inj (Except.ok.inj hfirst))
  simp at hchars

/-- A parameter is shown as a text unless somewhere in its pattern a wrapper stands around an
object, an array or an assignment; then it is that part which has no name. Where a pattern in which
one more part is wrapped can be shown, it is shown as before, except that the shorthand for a name
bound to the self reference is one only without a wrapper. -/
theorem renderParam_pattern_iff {p : Node} (h : p.IsPattern)
    (hs : splat.isPresent = true → s.splatSuffix.isText = true) :
    ((∃ text, renderParam s (.param p splat) = .ok (.text text)) ↔ ¬p.HasWrappedPart) ∧
      ((∃ n : Node, n.isComposite = true ∧
        renderParam s (.param p splat) = .error (.unnamable n.typeName)) ↔ p.HasWrappedPart) ∧
      ∀ p', p.RewrapsPart p' → ¬p'.HasWrappedPart →
        (renderParam s (.param p' splat) = renderParam s (.param p splat) ↔
          p.isShorthand = false) := by
  have hsettles := renderParam_settles h hs
  refine ⟨?_, ?_, ?_⟩
  · rw [← hsettles.returns_iff]
    constructor
    · rintro ⟨text, htext⟩
      exact ⟨.text text, htext, rfl⟩
    · rintro ⟨d, hd, htext⟩
      obtain ⟨text, rfl⟩ := Datum.isText_iff.mp htext
      exact ⟨text, hd⟩
  · rw [← not_not (a := p.HasWrappedPart), ← hsettles.fails_iff]
    constructor
    · rintro ⟨n, hn, he⟩
      exact ⟨_, he, n, hn, rfl⟩
    · rintro ⟨e, he, n, hn, rfl⟩
      exact ⟨n, hn, he⟩
  · intro p' hrewraps hno
    constructor
    · intro heq
      by_contra hshort
      rw [Bool.not_eq_false] at hshort
      obtain ⟨name, steps, rfl, -⟩ := eq_of_isShorthand h hshort
      cases hrewraps with
      | here => exact renderParam_wrapped_shorthand h rfl hs heq
    · intro hshort
      rw [renderParam_of_not_isShorthand s splat hshort,
        renderParam_of_not_isShorthand s splat hrewraps.not_isShorthand,
        h.patternName_rewrap hrewraps hno]

theorem renderParam_pattern_iff_wrapped_object :
    let point := Node.obj [.value (.literal (.text "x")) [], .value (.literal (.text "y")) []]
    let wrapped := Node.value point []
    point.IsPattern ∧ wrapped.IsPattern ∧ point.RewrapsPart wrapped ∧
      renderParam {} (.param point (.bool false)) = .ok (.text "\x7bx, y\x7d") ∧
      ∃ n : Node, n.isComposite = true ∧
        renderParam {} (.param wrapped (.bool false)) = .error (.unnamable n.typeName) := by
  intro point wrapped
  have hpoint : point.IsPattern := by
    refine .obj ?_
    simp only [List.forall_mem_cons, List.not_mem_nil, false_implies, implies_true, and_true]
    exact ⟨.path (.literal "x") (by simp), .path (.literal "y") (by simp)⟩
  have hwrapped : wrapped.IsPattern := .wrapper hpoint
  have hpart : wrapped.HasWrappedPart := .here rfl
  exact ⟨hpoint, hwrapped, .here point, rfl,
    (renderParam_pattern_iff hwrapped (by simp [Datum.isPresent])).2.1.mpr hpart⟩

end Documenter

end DocHarvest
