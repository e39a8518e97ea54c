import DocHarvest.Proofs.Documenter.Parts
import DocHarvest.Proofs.Outcome

/-!
# Two scripts statement by statement

Statements are interchangeable if nothing that documentation asks of a statement tells them apart
(`SameStatement`). At the top of a script this takes in the callbacks of `define` calls
(`SameAtTop`), whose statements may make up the module. Scripts whose statements are interchangeable
have the same document (`documentModule_alike`).
-/
namespace DocHarvest

open Node

/-- What an array offers as paths: the texts of the literals in it. -/
def pathTexts : Node → Option (List (Option Datum))
  | .arr items => some (items.map fun item => item.unwrap.literal?)
  | _ => none

/-- The parameters and the body of a function. -/
def callback? : Node → Option (List Node × Node)
  | .code params body _ => some (params, body)
  | _ => none

theorem pathTexts_eq_some_iff {n : Node} {texts : List (Option Datum)} :
    pathTexts n = some texts ↔
      ∃ items, n = .arr items ∧ items.map (fun item => item.unwrap.literal?) = texts := by
  cases n <;> simp [pathTexts]

namespace RequireJs

theorem pair_congr {items items' : List Node} (names : List Datum)
    (h : items.map (fun item => item.unwrap.literal?) =
      items'.map fun item => item.unwrap.literal?) :
    pair items names = pair items' names := by
  induction items generalizing items' names with
  | nil =>
    cases items' with
    | nil => rfl
    | cons item' items' => cases h
  | cons item items ih =>
    cases items' with
    | nil => cases h
    | cons item' items' =>
      simp only [List.map_cons, List.cons.injEq] at h
      obtain ⟨hitem, hitems⟩ := h
      rw [pair, pair, hitem, ih names.tail hitems]

theorem dependenciesOf_congr {d d' : Define} (hparams : d.params = d'.params)
    (hlength : d.args.length = d'.args.length)
    (hpaths : (d.args.map unwrap).head?.map pathTexts = (d'.args.map unwrap).head?.map pathTexts) :
    dependenciesOf d = dependenciesOf d' := by
  obtain ⟨call, args, params, body⟩ := d
  obtain ⟨call', args', params', body'⟩ := d'
  cases hparams
  match args, args', hlength, hpaths with
  | [], [], _, _ => rfl
  | [_], [_], _, _ => rfl
  | paths :: _ :: _, paths' :: _ :: _, _, hpaths =>
    have hsame : pathTexts paths.unwrap = pathTexts paths'.unwrap := by simpa using hpaths
    refine bind_congr fun names => ?_
    cases htexts : pathTexts paths.unwrap with
    | some texts =>
      obtain ⟨items, hitems, hmap⟩ := pathTexts_eq_some_iff.mp htexts
      obtain ⟨items', hitems', hmap'⟩ := pathTexts_eq_some_iff.mp (hsame ▸ htexts)
      rw [hitems, hitems']
      exact pair_congr names (hmap.trans hmap'.symm)
    | none =>
      have hother : ∀ {n : Node}, pathTexts n = none → ∀ items, n ≠ .arr items := by
        rintro n hn items rfl
        cases hn
      split
      next items hitems => exact absurd hitems (hother htexts items)
      · split
        next items hitems => exact absurd hitems (hother (hsame ▸ htexts) items)
        · rfl

end RequireJs

namespace Documenter

open RequireJs

/-- Nothing that is asked of a statement of a module tells the two apart. -/
structure SameStatement (n n' : Node) : Prop where
  isComment : n.isComment = n'.isComment
  docstring : ∀ s, docstring s (some n) = docstring s (some n')
  holdsClass : n.holdsClass = n'.holdsClass
  classDoc : n.holdsClass = true → ∀ s, (documentClass s n).result = (documentClass s n').result
  isFunction : n.isFunctionAssign = n'.isFunctionAssign
  function : n.isFunctionAssign = true → n = n'
  dependency : CommonJs.dependency? n = CommonJs.dependency? n'
  define : EndsAlike (Option.Rel fun d d' => dependenciesOf d = dependenciesOf d')
    (define? n) (define? n')

/-- Two `define` calls at the top of a script that make up the same module. -/
structure SameDefine (d d' : Define) : Prop where
  call : SameStatement d.call d'.call
  body : EndsAlike (List.Forall₂ SameStatement) d.body.statements d'.body.statements

structure SameAtTop (n n' : Node) : Prop where
  statement : SameStatement n n'
  define : EndsAlike (Option.Rel SameDefine) (define? n) (define? n')

theorem optionRel_refl {α : Type} {R : α → α → Prop} (hR : ∀ a, R a a) (o : Option α) :
    Option.Rel R o o := by
  cases o with
  | none => exact .none
  | some a => exact .some (hR a)

theorem SameStatement.refl (n : Node) : SameStatement n n where
  isComment := rfl
  docstring _ := rfl
  holdsClass := rfl
  classDoc _ _ := rfl
  isFunction := rfl
  function _ := rfl
  dependency := rfl
  define := by
    apply EndsAlike.refl
    exact optionRel_refl fun _ => rfl

theorem sameStatements_refl (ns : List Node) : List.Forall₂ SameStatement ns ns :=
  List.forall₂_same.mpr fun n _ => .refl n

theorem SameDefine.refl (d : Define) : SameDefine d d where
  call := .refl _
  body := .refl sameStatements_refl _

theorem SameAtTop.refl (n : Node) : SameAtTop n n where
  statement := .refl n
  define := .refl (optionRel_refl .refl) _

/-- Arguments with which a `define` call makes up the same module. -/
structure SameArgs (args args' : List Node) : Prop where
  length : args.length = args'.length
  paths : (args.map unwrap).head?.map pathTexts = (args'.map unwrap).head?.map pathTexts
  callback : Option.Rel
    (fun f f' => f.1 = f'.1 ∧
      EndsAlike (List.Forall₂ SameStatement) f.2.statements f'.2.statements)
    ((args.map unwrap).getLast?.bind callback?) ((args'.map unwrap).getLast?.bind callback?)

theorem define?_eq (n : Node) :
    define? n = callArgs? "define" n.unwrap >>= fun found => .ok (found.bind fun args =>
      ((args.map unwrap).getLast?.bind callback?).map fun f => ⟨n.unwrap, args, f.1, f.2⟩) := by
  unfold define?
  congr 1
  funext found
  cases found with
  | none => rfl
  | some args =>
    simp only [List.getLast?_map, Option.bind_some]
    cases args.getLast?.map unwrap with
    | none => rfl
    | some last => cases last <;> rfl

theorem callArgs?_alike (name : String) (callee : Node) {args args' : List Node}
    (h : args.length = args'.length) :
    EndsAlike (Option.Rel fun as as' => as = args ∧ as' = args')
      (callArgs? name (.call callee args)) (callArgs? name (.call callee args')) := by
  have hempty : args.isEmpty = args'.isEmpty := by
    rw [Bool.eq_iff_iff, List.isEmpty_iff_length_eq_zero, List.isEmpty_iff_length_eq_zero, h]
  rw [callArgs?, callArgs?, hempty]
  split
  · exact .ok .none
  · refine (EndsAlike.of_eq rfl).bind fun d d' hd => ?_
    cases hd
    split
    · exact .ok (.some ⟨rfl, rfl⟩)
    · exact .ok .none

theorem define?_alike {n n' callee : Node} {args args' : List Node}
    (hn : n.unwrap = .call callee args) (hn' : n'.unwrap = .call callee args')
    (h : SameArgs args args') :
    EndsAlike (Option.Rel fun d d' => d.call = n.unwrap ∧ d'.call = n'.unwrap ∧
        dependenciesOf d = dependenciesOf d' ∧
        EndsAlike (List.Forall₂ SameStatement) d.body.statements d'.body.statements)
      (define? n) (define? n') := by
  rw [define?_eq, define?_eq, hn, hn']
  refine (callArgs?_alike "define" callee h.length).bind fun found found' hfound => .ok ?_
  cases hfound with
  | none => exact .none
  | some hargs =>
    have hcallback := h.callback
    rw [Option.bind_some, Option.bind_some, hargs.1, hargs.2]
    generalize (args.map unwrap).getLast?.bind callback? = f at hcallback ⊢
    generalize (args'.map unwrap).getLast?.bind callback? = f' at hcallback ⊢
    cases hcallback with
    | none => exact .none
    | some hf =>
      obtain ⟨hparams, hbody⟩ := hf
      exact .some ⟨rfl, rfl, dependenciesOf_congr hparams h.length h.paths, hbody⟩

theorem eq_of_unwrap_call {n callee : Node} {args : List Node} (h : n.unwrap = .call callee args) :
    n = .call callee args ∨ n = .value (.call callee args) [] := by
  unfold Node.unwrap at h
  split at h
  · exact .inr (by rw [h])
  · exact .inl h

/-- Comments and functions are compared as they stand, all other statements by what they say about
classes and dependencies. -/
theorem SameStatement.of_other {n n' : Node}
    (hcomment : n.isComment = false ∧ n'.isComment = false)
    (hfunction : n.isFunctionAssign = false ∧ n'.isFunctionAssign = false)
    (hclass : n.holdsClass = n'.holdsClass)
    (hdoc : n.holdsClass = true → ∀ s, (documentClass s n).result = (documentClass s n').result)
    (hdep : CommonJs.dependency? n = CommonJs.dependency? n')
    (hdefine : EndsAlike (Option.Rel fun d d' => dependenciesOf d = dependenciesOf d')
      (define? n) (define? n')) : SameStatement n n' where
  isComment := by rw [hcomment.1, hcomment.2]
  docstring s := by
    rw [docstring_of_not_isComment s hcomment.1, docstring_of_not_isComment s hcomment.2]
  holdsClass := hclass
  classDoc := hdoc
  isFunction := by rw [hfunction.1, hfunction.2]
  function h := by simp [hfunction.1] at h
  dependency := hdep
  define := hdefine

theorem SameAtTop.of_declaration {n n' : Node}
    (hcomment : n.isComment = false ∧ n'.isComment = false)
    (hfunction : n.isFunctionAssign = false ∧ n'.isFunctionAssign = false)
    (hclass : n.holdsClass = n'.holdsClass)
    (hdoc : n.holdsClass = true → ∀ s, (documentClass s n).result = (documentClass s n').result)
    (hdep : CommonJs.dependency? n = CommonJs.dependency? n')
    (hdefine : define? n = .ok none ∧ define? n' = .ok none) : SameAtTop n n' where
  statement := by
    refine .of_other hcomment hfunction hclass hdoc hdep ?_
    rw [hdefine.1, hdefine.2]
    exact .ok .none
  define := by
    rw [hdefine.1, hdefine.2]
    exact .ok .none

theorem call_declares_nothing {n callee : Node} {args : List Node}
    (h : n.unwrap = .call callee args) : n.isComment = false ∧ n.isFunctionAssign = false ∧
      n.holdsClass = false ∧ CommonJs.dependency? n = .ok none := by
  rcases eq_of_unwrap_call h with rfl | rfl
  · exact ⟨rfl, rfl, rfl, rfl⟩
  · exact ⟨rfl, rfl, rfl, rfl⟩

/-- All that is asked of a call is which module it defines. -/
theorem SameStatement.of_call {n n' callee callee' : Node} {args args' : List Node}
    (hn : n.unwrap = .call callee args) (hn' : n'.unwrap = .call callee' args')
    (hdefine : EndsAlike (Option.Rel fun d d' => dependenciesOf d = dependenciesOf d')
      (define? n) (define? n')) : SameStatement n n' := by
  obtain ⟨hcomment, hfunction, hclass, hdep⟩ := call_declares_nothing hn
  obtain ⟨hcomment', hfunction', hclass', hdep'⟩ := call_declares_nothing hn'
  refine .of_other ⟨hcomment, hcomment'⟩ ⟨hfunction, hfunction'⟩ (by rw [hclass, hclass']) ?_
    (by rw [hdep, hdep']) hdefine
  intro h
  simp [hclass] at h

theorem define?_congr {n n' : Node} (h : n.unwrap = n'.unwrap) : define? n = define? n' := by
  rw [define?_eq, define?_eq, h]

theorem SameAtTop.of_args {n n' callee : Node} {args args' : List Node}
    (hn : n.unwrap = .call callee args) (hn' : n'.unwrap = .call callee args')
    (h : SameArgs args args') : SameAtTop n n' := by
  have hdefine := define?_alike hn hn' h
  have hdeps : EndsAlike (Option.Rel fun d d' => dependenciesOf d = dependenciesOf d')
      (define? n) (define? n') := by
    refine hdefine.imp fun o o' ho => ?_
    cases ho with
    | none => exact .none
    | some hd => exact .some hd.2.2.1
  have hcall : SameStatement n.unwrap n'.unwrap := by
    refine .of_call ((unwrap_call hn).trans hn) ((unwrap_call hn').trans hn') ?_
    rw [define?_congr (unwrap_call hn), define?_congr (unwrap_call hn')]
    exact hdeps
  refine ⟨.of_call hn hn' hdeps, hdefine.imp fun o o' ho => ?_⟩
  cases ho with
  | none => exact .none
  | some hd =>
    obtain ⟨hd, hd', -, hbody⟩ := hd
    exact .some ⟨by rw [hd, hd']; exact hcall, hbody⟩

theorem SameArgs.of_unwrap {args args' : List Node} (h : args.map unwrap = args'.map unwrap) :
    SameArgs args args' where
  length := by simpa using congrArg List.length h
  paths := by rw [h]
  callback := by
    rw [h]
    apply optionRel_refl
    exact fun f => ⟨rfl, .refl sameStatements_refl _⟩

theorem firstDefine_alike {D : Define → Define → Prop} {ns ns' : List Node}
    (h : List.Forall₂ (fun n n' => EndsAlike (Option.Rel D) (define? n) (define? n')) ns ns') :
    EndsAlike (Option.Rel D) (firstDefine ns) (firstDefine ns') := by
  induction h with
  | nil => exact .ok .none
  | cons hn _ ih =>
    refine hn.bind fun o o' ho => ?_
    cases ho with
    | none => exact ih
    | some hd => exact .ok (.some hd)

theorem dependencies_alike (style : ModuleStyle) {ns ns' : List Node}
    (h : List.Forall₂ SameStatement ns ns') : style.dependencies ns = style.dependencies ns' := by
  apply EndsAlike.eq
  cases style with
  | plain => exact .of_eq rfl
  | commonJs =>
    have hall := EndsAlike.mapM (fun _ _ hn => .of_eq hn.dependency) h
    refine hall.bind fun found found' hfound => ?_
    rw [List.forall₂_eq_eq_eq] at hfound
    rw [hfound]
    exact .of_eq rfl
  | requireJs =>
    refine (firstDefine_alike (h.imp fun _ _ hn => hn.define)).bind fun o o' ho => ?_
    cases ho with
    | none => exact .of_eq rfl
    | some hd => exact .of_eq hd

theorem sameStatements_opening {top top' : List Node} (h : List.Forall₂ SameAtTop top top') :
    List.Forall₂ SameStatement (top.head?.toList.filter isComment)
      (top'.head?.toList.filter isComment) := by
  cases h with
  | nil => exact .nil
  | @cons n n' _ _ hn _ =>
    have hcomment := hn.statement.isComment
    cases hn' : n'.isComment with
    | false => simp [hcomment, hn']
    | true => simpa [hcomment, hn'] using hn.statement

theorem statements_alike (style : ModuleStyle) {top top' : List Node}
    (h : List.Forall₂ SameAtTop top top') :
    EndsAlike (List.Forall₂ SameStatement) (style.statements (.tree (.block top))).result
      (style.statements (.tree (.block top'))).result := by
  have hstatements : List.Forall₂ SameStatement top top' := h.imp fun _ _ hn => hn.statement
  cases style with
  | plain => exact .ok hstatements
  | commonJs => exact .ok hstatements
  | requireJs =>
    change EndsAlike _ (liftM (firstDefine top) >>= _ : Traced (List Node)).result
      (liftM (firstDefine top') >>= _ : Traced (List Node)).result
    rw [Traced.result_bind, Traced.result_bind]
    refine (firstDefine_alike (h.imp fun _ _ hn => hn.define)).bind fun o o' ho => ?_
    cases ho with
    | none => exact .ok hstatements
    | some hd =>
      refine hd.body.bind fun inner inner' hinner => .ok ?_
      exact List.rel_append (List.rel_append (sameStatements_opening h) hinner)
        (.cons hd.call .nil)

theorem forall₂_filter {α : Type} {R : α → α → Prop} {p : α → Bool}
    (hp : ∀ a b, R a b → p a = p b) {as bs : List α} (h : List.Forall₂ R as bs) :
    List.Forall₂ (fun a b => R a b ∧ p a = true) (as.filter p) (bs.filter p) := by
  induction h with
  | nil => exact .nil
  | @cons a b _ _ hab _ ih =>
    cases hb : p b with
    | false =>
      rw [List.filter_cons_of_neg (by simp [hp a b hab, hb]),
        List.filter_cons_of_neg (by simp [hb])]
      exact ih
    | true =>
      have ha : p a = true := (hp a b hab).trans hb
      rw [List.filter_cons_of_pos ha, List.filter_cons_of_pos hb]
      exact .cons ⟨hab, ha⟩ ih

theorem docstring_head? (s : DocSettings) {ns ns' : List Node}
    (h : List.Forall₂ SameStatement ns ns') : docstring s ns.head? = docstring s ns'.head? := by
  cases h with
  | nil => rfl
  | cons hn _ => exact hn.docstring s

theorem documentModule_alike (s : DocSettings) (style : ModuleStyle) {top top' : List Node}
    (h : List.Forall₂ SameAtTop top top') :
    (documentModule s (some style) (.tree (.block top))).result =
      (documentModule s (some style) (.tree (.block top'))).result := by
  rw [documentModule_result, documentModule_result]
  apply EndsAlike.eq
  refine (statements_alike style h).bind fun nodes nodes' hnodes => ?_
  rw [docstring_head? s hnodes, dependencies_alike style hnodes]
  have hclasses : (ModuleStyle.classes nodes).mapM (fun n => (documentClass s n).result) =
      (ModuleStyle.classes nodes').mapM fun n => (documentClass s n).result := by
    have hall := EndsAlike.mapM (fun _ _ hn => .of_eq (hn.1.classDoc hn.2 s))
      (forall₂_filter (fun _ _ hn => SameStatement.holdsClass hn) hnodes)
    rw [List.forall₂_eq_eq_eq] at hall
    exact hall.eq
  have hfunctions : ModuleStyle.functions nodes = ModuleStyle.functions nodes' := by
    have hall := (forall₂_filter (fun _ _ hn => SameStatement.isFunction hn) hnodes).imp
      fun _ _ hn => hn.1.function hn.2
    rwa [List.forall₂_eq_eq_eq] at hall
  rw [hclasses, hfunctions]
  exact .of_eq rfl

end Documenter

end DocHarvest
