import DocHarvest.Proofs.Documenter.Interchange

/-!
# Wrappers that make no difference

A value without steps stands for its base in all the places where documentation looks through it
(`Node.RewrapsModule` lists them), so a script has the same document whether a node stands there
bare or in a wrapper: each change leaves the statement interchangeable with what it was.
-/
namespace DocHarvest

namespace Node

def isCall : Node → Bool
  | call _ _ => true
  | _ => false

/-- A change of a node that stands bare or in a wrapper. -/
inductive Inside (R : Node → Node → Prop) : Node → Node → Prop
  | bare {a b : Node} (h : R a b) : Inside R a b
  | wrapped {a b : Node} (h : R a b) : Inside R (value a []) (value b [])

/-- An object literal in the body of a class takes a wrapper, or the superclass expression does. -/
inductive RewrapsClass : Node → Node → Prop
  | statement (before after : List Node) {name parent : Option Node} {entries : List Node} :
      RewrapsClass (classDecl name parent (block (before ++ obj entries :: after)))
        (classDecl name parent (block (before ++ value (obj entries) [] :: after)))
  | superclass {name : Option Node} {parent body : Node} (h : parent.isWrapper = false) :
      RewrapsClass (classDecl name (some parent) body)
        (classDecl name (some (value parent [])) body)

/-- The first argument of a call takes a wrapper. -/
inductive RewrapsFirst : Node → Node → Prop
  | first {callee arg : Node} {args : List Node} (h : arg.isWrapper = false) :
      RewrapsFirst (call callee (arg :: args)) (call callee (value arg [] :: args))

inductive RewrapsItem : Node → Node → Prop
  | item (before after : List Node) {n : Node} (h : n.isWrapper = false) :
      RewrapsItem (arr (before ++ n :: after)) (arr (before ++ value n [] :: after))

/-- An argument of a call takes a wrapper: the first, the last, or an item of the first. -/
inductive RewrapsArgs : Node → Node → Prop
  | first {a b : Node} (h : RewrapsFirst a b) : RewrapsArgs a b
  | last (args : List Node) {callee arg : Node} (h : arg.isWrapper = false) :
      RewrapsArgs (call callee (args ++ [arg])) (call callee (args ++ [value arg []]))
  | item {callee paths paths' : Node} {args : List Node} (h : Inside RewrapsItem paths paths') :
      RewrapsArgs (call callee (paths :: args)) (call callee (paths' :: args))

/-- A statement of a module takes a wrapper, around a part of it or around all of it. -/
inductive RewrapsStatement : Node → Node → Prop
  | ofClass {n n' : Node} (h : RewrapsClass n n') : RewrapsStatement n n'
  | ofAssignedClass {target v v' : Node} (h : Inside RewrapsClass v v') :
      RewrapsStatement (assign target v) (assign target v')
  | assigned {target v : Node} (h : v.isClass = true ∨ v.isCall = true) :
      RewrapsStatement (assign target v) (assign target (value v []))
  | ofAssignedCall {target v v' : Node} (h : Inside RewrapsFirst v v') :
      RewrapsStatement (assign target v) (assign target v')
  | calls {n : Node} (h : n.isCall = true) : RewrapsStatement n (value n [])
  | ofCall {n n' : Node} (h : Inside RewrapsArgs n n') : RewrapsStatement n n'

/-- A statement of a function's body takes a wrapper. -/
inductive RewrapsBody : Node → Node → Prop
  | statement (before after : List Node) {params : List Node} {n n' : Node} {bound : Datum}
      (h : RewrapsStatement n n') :
      RewrapsBody (code params (block (before ++ n :: after)) bound)
        (code params (block (before ++ n' :: after)) bound)

inductive RewrapsCallback : Node → Node → Prop
  | callback (args : List Node) {callee f f' : Node} (h : Inside RewrapsBody f f') :
      RewrapsCallback (call callee (args ++ [f])) (call callee (args ++ [f']))

/-- A script in which one node takes a wrapper, at the top or in the callback of a `define` call. -/
inductive RewrapsModule : List Node → List Node → Prop
  | top (before after : List Node) {n n' : Node} (h : RewrapsStatement n n') :
      RewrapsModule (before ++ n :: after) (before ++ n' :: after)
  | callback (before after : List Node) {n n' : Node} (hn : n.isDefine = true)
      (h : Inside RewrapsCallback n n') :
      RewrapsModule (before ++ n :: after) (before ++ n' :: after)

theorem RewrapsClass.unwrap {c d : Node} (h : RewrapsClass c d) : c.unwrap = c ∧ d.unwrap = d := by
  cases h with
  | statement => exact ⟨rfl, rfl⟩
  | superclass => exact ⟨rfl, rfl⟩

theorem RewrapsFirst.unwrap {c d : Node} (h : RewrapsFirst c d) : c.unwrap = c ∧ d.unwrap = d := by
  cases h with
  | first => exact ⟨rfl, rfl⟩

theorem RewrapsItem.unwrap {c d : Node} (h : RewrapsItem c d) : c.unwrap = c ∧ d.unwrap = d := by
  cases h with
  | item => exact ⟨rfl, rfl⟩

theorem RewrapsArgs.unwrap {c d : Node} (h : RewrapsArgs c d) : c.unwrap = c ∧ d.unwrap = d := by
  cases h with
  | first h => exact h.unwrap
  | last => exact ⟨rfl, rfl⟩
  | item => exact ⟨rfl, rfl⟩

theorem RewrapsBody.unwrap {c d : Node} (h : RewrapsBody c d) : c.unwrap = c ∧ d.unwrap = d := by
  cases h with
  | statement => exact ⟨rfl, rfl⟩

theorem RewrapsCallback.unwrap {c d : Node} (h : RewrapsCallback c d) :
    c.unwrap = c ∧ d.unwrap = d := by
  cases h with
  | callback => exact ⟨rfl, rfl⟩

theorem Inside.unwrap {R : Node → Node → Prop} {a b : Node} (h : Inside R a b)
    (hR : ∀ c d, R c d → c.unwrap = c ∧ d.unwrap = d) : R a.unwrap b.unwrap := by
  cases h with
  | bare h =>
    rw [(hR a b h).1, (hR a b h).2]
    exact h
  | wrapped h => exact h

end Node

namespace Documenter

open Node

/-- A single place in a list at which a function gives the same. -/
theorem map_replace {α β : Type} {f : α → β} {a b : α} (h : f a = f b) (before after : List α) :
    (before ++ a :: after).map f = (before ++ b :: after).map f := by
  rw [List.map_append, List.map_append, List.map_cons, List.map_cons, h]

theorem unwrap_of_wrapper {n : Node} (h : n.isWrapper = false) :
    n.unwrap = (Node.value n []).unwrap :=
  unwrap_of_not_isWrapper h

theorem SameArgs.of_rewrapsArgs {n n' : Node} (h : RewrapsArgs n n') :
    ∃ callee args args', n = .call callee args ∧ n' = .call callee args' ∧ SameArgs args args' := by
  cases h with
  | first h =>
    cases h with
    | @first callee arg args h =>
      exact ⟨callee, _, _, rfl, rfl, .of_unwrap (map_replace (unwrap_of_wrapper h) [] args)⟩
  | @last args callee arg h =>
    exact ⟨callee, _, _, rfl, rfl, .of_unwrap (map_replace (unwrap_of_wrapper h) args [])⟩
  | @item callee paths paths' args h =>
    refine ⟨callee, _, _, rfl, rfl, ?_⟩
    have hitem := h.unwrap fun _ _ => RewrapsItem.unwrap
    generalize hp : paths.unwrap = p at hitem
    generalize hp' : paths'.unwrap = p' at hitem
    cases hitem with
    | @item before after m hm =>
      have htexts := map_replace (f := fun item : Node => item.unwrap.literal?)
        (congrArg literal? (unwrap_of_wrapper hm)) before after
      refine ⟨rfl, ?_, ?_⟩
      · simp only [List.map_cons, hp, hp', List.head?_cons, Option.map_some, pathTexts, htexts]
      · cases args with
        | nil =>
          simp only [List.map_cons, List.map_nil, hp, hp']
          exact .none
        | cons second rest =>
          simp only [List.map_cons, List.getLast?_cons_cons]
          apply optionRel_refl
          exact fun f => ⟨rfl, .refl sameStatements_refl _⟩

theorem classDocstring_rewrap (s : DocSettings) (before after entries : List Node) :
    classDocstring s (before ++ .obj entries :: after) =
      classDocstring s (before ++ .value (.obj entries) [] :: after) := by
  match before, after with
  | [], [] => rfl
  | [], _ :: _ => rfl
  | _ :: [], _ => rfl
  | _ :: _ :: _, _ => rfl

theorem parentName_rewrap {parent : Node} (h : parent.isWrapper = false) :
    parentName (some parent) = parentName (some (.value parent [])) := by
  have htarget : parentTarget parent = parentTarget (.value parent []) := by
    rw [parentTarget, parentTarget, unwrap_of_wrapper h]
  rw [parentName, parentName, htarget]

theorem mapM_replace {α β : Type} {f : α → Except Fault β} {a b : α} (h : f a = f b)
    (before after : List α) : (before ++ a :: after).mapM f = (before ++ b :: after).mapM f := by
  rw [List.mapM_append, List.mapM_append, List.mapM_cons, List.mapM_cons, h]

theorem documentClass_rewrap {n n' : Node} (h : RewrapsClass (classOf n) (classOf n'))
    (s : DocSettings) : (documentClass s n).result = (documentClass s n').result := by
  generalize hn : classOf n = c at h
  generalize hn' : classOf n' = c' at h
  cases h with
  | @statement before after name parent entries =>
    have hmembers := mapM_replace (f := fun n => (documentStatement s n).result)
      (a := .obj entries) (b := .value (.obj entries) []) rfl before after
    rw [documentClass_result s hn, documentClass_result s hn', hmembers, classDocstring_rewrap]
  | superclass h => simp only [documentClass, hn, hn', parentName_rewrap h]

theorem isClass_of_rewrapsClass {c c' : Node} (h : RewrapsClass c c') :
    c.isClass = true ∧ c'.isClass = true := by
  cases h with
  | statement => exact ⟨rfl, rfl⟩
  | superclass => exact ⟨rfl, rfl⟩

theorem SameAtTop.of_class {n n' : Node} (h : RewrapsClass n n') : SameAtTop n n' := by
  have hdoc : ∀ s, (documentClass s n).result = (documentClass s n').result := by
    apply documentClass_rewrap
    cases h with
    | statement before after => exact .statement before after
    | superclass h => exact .superclass h
  cases h with
  | statement => exact .of_declaration ⟨rfl, rfl⟩ ⟨rfl, rfl⟩ rfl (fun _ => hdoc) rfl ⟨rfl, rfl⟩
  | superclass => exact .of_declaration ⟨rfl, rfl⟩ ⟨rfl, rfl⟩ rfl (fun _ => hdoc) rfl ⟨rfl, rfl⟩

theorem SameAtTop.of_assign {target v v' : Node} (hcode : v.isCode = false ∧ v'.isCode = false)
    (hclass : v.unwrap.isClass = v'.unwrap.isClass)
    (hdoc : v.unwrap.isClass = true → ∀ s,
      (documentClass s (.assign target v)).result = (documentClass s (.assign target v')).result)
    (hdep : CommonJs.dependency? (.assign target v) = CommonJs.dependency? (.assign target v')) :
    SameAtTop (.assign target v) (.assign target v') := by
  have hfunction : ∀ w : Node, w.isCode = false →
      (Node.assign target w).isFunctionAssign = false := by
    intro w hw
    cases w with
    | code params body bound => cases hw
    | _ => rfl
  exact .of_declaration ⟨rfl, rfl⟩ ⟨hfunction v hcode.1, hfunction v' hcode.2⟩ hclass hdoc hdep
    ⟨rfl, rfl⟩

theorem not_isCode_of_isClass {v : Node} (h : v.isClass = true) : v.isCode = false := by
  cases v with
  | classDecl name parent body => rfl
  | _ => cases h

theorem dependency?_of_isClass (target : Node) {v : Node} (h : v.unwrap.isClass = true) :
    CommonJs.dependency? (.assign target v) = .ok none := by
  rw [CommonJs.dependency?]
  cases hv : v.unwrap with
  | classDecl name parent body => rfl
  | _ =>
    rw [hv] at h
    cases h

theorem isCode_of_unwrap {v : Node} (h : v.unwrap.isCode = false) : v.isCode = false := by
  cases v with
  | code params body bound => exact h
  | _ => rfl

/-- An assigned value that is looked at through its wrapper only. -/
theorem SameAtTop.of_assigned {target v v' : Node} (h : v.unwrap = v'.unwrap)
    (hcode : v.unwrap.isCode = false) : SameAtTop (.assign target v) (.assign target v') := by
  refine .of_assign ⟨isCode_of_unwrap hcode, isCode_of_unwrap (h ▸ hcode)⟩ (by rw [h]) ?_ ?_
  · intro _ s
    rw [documentClass, documentClass, classOf, classOf, h]
  · rw [CommonJs.dependency?, CommonJs.dependency?, h]

theorem dependency?_rewrapsFirst (target : Node) {v v' : Node}
    (h : RewrapsFirst v.unwrap v'.unwrap) :
    CommonJs.dependency? (.assign target v) = CommonJs.dependency? (.assign target v') := by
  rw [CommonJs.dependency?, CommonJs.dependency?]
  generalize v.unwrap = c at h
  generalize v'.unwrap = c' at h
  cases h with
  | @first callee arg args h =>
    apply EndsAlike.eq
    have hargs := callArgs?_alike "require" callee
      (show (arg :: args).length = (Node.value arg [] :: args).length from rfl)
    refine hargs.bind fun found found' hfound => ?_
    cases hfound with
    | none => exact .of_eq rfl
    | some hsame =>
      rw [hsame.1, hsame.2]
      dsimp only
      rw [unwrap_of_wrapper h]
      exact .of_eq rfl

theorem SameAtTop.of_rewraps {n n' : Node} (h : RewrapsStatement n n') : SameAtTop n n' := by
  cases h with
  | ofClass h => exact .of_class h
  | @ofAssignedClass target v v' h =>
    have hclass := h.unwrap fun _ _ => RewrapsClass.unwrap
    obtain ⟨hv, hv'⟩ := isClass_of_rewrapsClass hclass
    refine .of_assign ⟨?_, ?_⟩ (by rw [hv, hv']) ?_ ?_
    · exact isCode_of_unwrap (not_isCode_of_isClass hv)
    · exact isCode_of_unwrap (not_isCode_of_isClass hv')
    · exact fun _ => documentClass_rewrap hclass
    · rw [dependency?_of_isClass target hv, dependency?_of_isClass target hv']
  | @assigned target v h =>
    have hv : v.isWrapper = false ∧ v.isCode = false := by
      cases v with
      | classDecl name parent body => exact ⟨rfl, rfl⟩
      | call callee args => exact ⟨rfl, rfl⟩
      | _ => rcases h with h | h <;> cases h
    refine .of_assigned (unwrap_of_wrapper hv.1) ?_
    rw [unwrap_of_not_isWrapper hv.1]
    exact hv.2
  | @ofAssignedCall target v v' h =>
    have hfirst := h.unwrap fun _ _ => RewrapsFirst.unwrap
    have hdep := dependency?_rewrapsFirst target hfirst
    generalize hv : v.unwrap = c at hfirst
    generalize hv' : v'.unwrap = c' at hfirst
    cases hfirst with
    | first _ =>
      refine .of_assign ⟨isCode_of_unwrap (by rw [hv]; rfl), isCode_of_unwrap (by rw [hv']; rfl)⟩
        (by rw [hv, hv']; rfl) ?_ hdep
      intro hclass
      rw [hv] at hclass
      cases hclass
  | calls h =>
    cases n with
    | call callee args => exact .of_args rfl rfl (.of_unwrap rfl)
    | _ => cases h
  | ofCall h =>
    have hargs := h.unwrap fun _ _ => RewrapsArgs.unwrap
    obtain ⟨callee, args, args', hn, hn', hsame⟩ := SameArgs.of_rewrapsArgs hargs
    exact .of_args hn hn' hsame

theorem forall₂_replace {α : Type} {R : α → α → Prop} (hR : ∀ a, R a a) {a b : α} (h : R a b)
    (before after : List α) : List.Forall₂ R (before ++ a :: after) (before ++ b :: after) := by
  induction before with
  | nil => exact .cons h (List.forall₂_same.mpr fun c _ => hR c)
  | cons c before ih => exact .cons (hR c) ih

theorem SameArgs.of_rewrapsCallback {n n' : Node} (h : RewrapsCallback n n') :
    ∃ callee args args', n = .call callee args ∧ n' = .call callee args' ∧ SameArgs args args' := by
  cases h with
  | @callback args callee f f' h =>
    refine ⟨callee, _, _, rfl, rfl, ?_⟩
    have hbody := h.unwrap fun _ _ => RewrapsBody.unwrap
    generalize hf : f.unwrap = c at hbody
    generalize hf' : f'.unwrap = c' at hbody
    cases hbody with
    | statement before after hm =>
      refine ⟨by simp, ?_, ?_⟩
      · cases args with
        | nil =>
          simp only [List.nil_append, List.map_cons, List.head?_cons, hf, hf']
          rfl
        | cons first rest => rfl
      · simp only [List.map_append, List.map_cons, List.map_nil, List.getLast?_concat,
          Option.bind_some, hf, hf']
        refine .some ⟨rfl, .ok ?_⟩
        exact forall₂_replace .refl (SameAtTop.of_rewraps hm).statement before after

/-- One changed node leaves all statements of the script interchangeable. -/
theorem sameAtTop_of_rewrapsModule {top top' : List Node} (h : RewrapsModule top top') :
    List.Forall₂ SameAtTop top top' := by
  cases h with
  | top before after h => exact forall₂_replace .refl (.of_rewraps h) before after
  | callback before after _ h =>
    have hcallback := h.unwrap fun _ _ => RewrapsCallback.unwrap
    obtain ⟨callee, args, args', hn, hn', hsame⟩ := SameArgs.of_rewrapsCallback hcallback
    exact forall₂_replace .refl (.of_args hn hn' hsame) before after

/-- A comment that opens the only object literal of a class body says the same as one before it. -/
theorem documentClass_comment_before (s : DocSettings) (name parent : Option Node) (text : Datum)
    (entries : List Node) :
    (documentClass s (.classDecl name parent (.block [.obj (.comment text :: entries)]))).result =
      (documentClass s
        (.classDecl name parent (.block [.comment text, .obj entries]))).result := by
  have hinside : documentStatement s (.obj (.comment text :: entries)) =
      documentStatement s (.obj entries) := rfl
  have hbefore : (documentStatement s (.comment text)).result = .ok [] := rfl
  have hdoc : classDocstring s [.obj (.comment text :: entries)] =
      classDocstring s [.comment text, .obj entries] := rfl
  rw [documentClass_result s rfl, documentClass_result s rfl, hdoc]
  simp only [List.mapM_cons, List.mapM_nil, hinside, hbefore, bind_assoc]
  rfl

/-- A script has the same document whether the nodes that documentation looks through wrappers at
stand bare or in wrappers, and a class has the same document whether its comment stands inside its
only object literal or before it. -/
theorem document_ignores_wrapping :
    (∀ (s : DocSettings) (style : ModuleStyle) (top top' : List Node), RewrapsModule top top' →
      (documentModule s (some style) (.tree (.block top))).result =
        (documentModule s (some style) (.tree (.block top'))).result) ∧
    ∀ (s : DocSettings) (name parent : Option Node) (text : Datum) (entries : List Node),
      (documentClass s (.classDecl name parent (.block [.obj (.comment text :: entries)]))).result =
        (documentClass s
          (.classDecl name parent (.block [.comment text, .obj entries]))).result := by
  constructor
  · intro s style top top' h
    exact documentModule_alike s style (sameAtTop_of_rewrapsModule h)
  · exact documentClass_comment_before

theorem document_ignores_wrapping_view :
    let entry := Node.assign (.value (.literal (.text "run")) [])
      (.code [] (.block [.comment (.text "Runs.")]) (.bool false))
    let view (statement : Node) := Node.assign (.literal (.text "View"))
      (.value (.classDecl none (some (.literal (.text "Base"))) (.block [statement])) [])
    let define (statement : Node) := Node.call (.literal (.text "define"))
      [.value (.code [] (.block [view statement]) (.bool false)) []]
    let bare := [Node.comment (.text "A module."), define (.obj [entry])]
    let wrapped := [Node.comment (.text "A module."), define (.value (.obj [entry]) [])]
    RewrapsModule bare wrapped ∧
      ∃ m, (documentModule {} (some .requireJs) (.tree (.block bare))).result = .ok m ∧
        (documentModule {} (some .requireJs) (.tree (.block wrapped))).result = .ok m := by
  intro entry view define bare wrapped
  have hclass : RewrapsStatement (view (.obj [entry])) (view (.value (.obj [entry]) [])) :=
    .ofAssignedClass (.wrapped (.statement [] []))
  have hcall : RewrapsCallback (define (.obj [entry])) (define (.value (.obj [entry]) [])) :=
    .callback [] (.wrapped (.statement [] [] hclass))
  have hmodule : RewrapsModule bare wrapped :=
    .callback [_] [] rfl (.bare hcall)
  refine ⟨hmodule, _, rfl, ?_⟩
  rw [← document_ignores_wrapping.1 {} .requireJs bare wrapped hmodule]
  rfl

end Documenter

end DocHarvest
