import DocHarvest.Proofs.Node.Naming

/-!
# Names along chains of bases

Joining some of the parts of a name first makes no difference (`joinTexts_append`), so a value
around a value is named like one value with the steps of both (`qualifiedName_flatten`). The name of
any node is then that of one flat value: the end of its chain of bases (`nameRoot`) with the steps
of all values on the way (`chainSteps`).
-/
namespace DocHarvest.Node

/-- The steps of all values on a node's chain of bases, those of the innermost value first. -/
def chainSteps : Node → List Node
  | value base steps => base.chainSteps ++ steps
  | _ => []

/-- The text that an identifier or an access step holds. -/
def ownText? : Node → Option String
  | literal v => v.text?
  | this => some "this"
  | access name => name.text?
  | _ => none

def isAccess : Node → Bool
  | access _ => true
  | _ => false

theorem exists_access_of_isAccess {n : Node} (h : n.isAccess = true) :
    ∃ name, access name = n := by
  cases n with
  | access name => exact ⟨name, rfl⟩
  | _ => cases h

theorem isAccess_of_isStep {n : Node} (h : n.isStep = true) : n.isAccess = true := by
  obtain ⟨s, rfl⟩ := exists_access_of_isStep h
  rfl

theorem intercalate_append (sep : String) {texts : List String} (h : texts ≠ [])
    (rest : List String) :
    sep.intercalate (texts ++ rest) = sep.intercalate (sep.intercalate texts :: rest) := by
  cases rest with
  | nil => rw [List.append_nil, String.intercalate_singleton]
  | cons t rest =>
    rw [String.intercalate_append_of_ne_nil h (List.cons_ne_nil t rest),
      String.intercalate_cons_cons]

theorem joinTexts_append (sep : String) {parts : List (Option String)} (h : parts ≠ [])
    (rest : List (Option String)) :
    joinTexts sep (parts ++ rest) =
      joinTexts sep parts >>= fun s => joinTexts sep (some s :: rest) := by
  cases hall : parts.all Option.isSome with
  | false =>
    -- A part that is no text is met by both, and by the nested join before the rest is looked at.
    have hboth : (parts ++ rest).all Option.isSome = false := by
      rw [List.all_append, hall, Bool.false_and]
    simp only [joinTexts, hall, hboth]
    rfl
  | true =>
    have hne : parts.filterMap id ≠ [] := by
      obtain ⟨part, parts, rfl⟩ := List.exists_cons_of_ne_nil h
      obtain ⟨t, rfl⟩ := Option.isSome_iff_exists.mp (List.all_eq_true.mp hall part (by simp))
      simp
    have hjoin : joinTexts sep parts = pure (sep.intercalate (parts.filterMap id)) := if_pos hall
    rw [hjoin, pure_bind, joinTexts, joinTexts, List.all_append, hall, List.filterMap_append,
      intercalate_append sep hne]
    rfl

theorem mapM_stepName_of_isAccess {steps : List Node} (h : ∀ step ∈ steps, step.isAccess = true) :
    ∃ names : List (Option String), steps.mapM stepName = pure names := by
  obtain ⟨names, rfl⟩ : steps ∈ Set.range (List.map access) := by
    rw [Set.range_list_map]
    exact fun step hstep => exists_access_of_isAccess (h step hstep)
  exact ⟨names.map Datum.text?, Fault.mapM_map_ok fun _ _ => rfl⟩

/-- A value around a value is named like one value with the steps of both, also if its parts are
not what they should be. -/
theorem qualifiedName_flatten (base : Node) (inner : List Node) {outer : List Node}
    (h : ∀ step ∈ outer, step.isAccess = true) :
    (value (value base inner) outer).qualifiedName =
      (value base (inner ++ outer)).qualifiedName := by
  obtain ⟨names, hnames⟩ := mapM_stepName_of_isAccess h
  have hjoin : ∀ (first : Option String) (rest : List (Option String)),
      joinTexts "." (first :: (rest ++ names)) =
        joinTexts "." (first :: rest) >>= fun s => joinTexts "." (some s :: names) :=
    fun first rest => joinTexts_append "." (List.cons_ne_nil first rest) names
  simp only [qualifiedName, List.mapM_append, hnames, bind_assoc, pure_bind, hjoin, Datum.text?]

theorem pathSteps_injective : Function.Injective pathSteps :=
  List.map_injective_iff.mpr fun s t h => by simpa using h

variable {n : Node}

theorem isWellTyped_nameRoot (h : n.isWellTyped = true) : n.nameRoot.isWellTyped = true := by
  fun_induction nameRoot n with
  | case1 base steps ih => exact ih (isWellTyped_value.mp h).1
  | case2 n hn => exact h

theorem isStep_of_mem_chainSteps (h : n.isWellTyped = true) :
    ∀ step ∈ n.chainSteps, step.isStep = true := by
  fun_induction chainSteps n with
  | case1 base steps ih =>
    obtain ⟨hbase, hsteps⟩ := isWellTyped_value.mp h
    exact List.forall_mem_append.mpr ⟨ih hbase, hsteps⟩
  | case2 n hn => simp

theorem qualifiedName_value_flat {steps : List Node} (h : (value n steps).isWellTyped = true) :
    (value n steps).qualifiedName =
      (value n.nameRoot (n.chainSteps ++ steps)).qualifiedName := by
  fun_induction chainSteps n generalizing steps with
  | case1 base inner ih =>
    obtain ⟨hn, hsteps⟩ := isWellTyped_value.mp h
    obtain ⟨hbase, hinner⟩ := isWellTyped_value.mp hn
    have hflat : (value base (inner ++ steps)).isWellTyped = true :=
      isWellTyped_value.mpr ⟨hbase, List.forall_mem_append.mpr ⟨hinner, hsteps⟩⟩
    rw [qualifiedName_flatten base inner fun s hs => isAccess_of_isStep (hsteps s hs), ih hflat,
      List.append_assoc]
    rfl
  | case2 n hn =>
    rw [nameRoot, List.nil_append]
    exact hn

/-- Every chain can be flattened at once. -/
theorem qualifiedName_flat (h : n.isWellTyped = true) :
    n.qualifiedName = (value n.nameRoot n.chainSteps).qualifiedName := by
  cases n with
  | value base steps => exact qualifiedName_value_flat h
  | literal v =>
    obtain ⟨s, rfl⟩ := Datum.isText_iff.mp h
    exact (qualifiedName_path rfl []).symm
  | this => exact (qualifiedName_path rfl []).symm
  | access name =>
    obtain ⟨s, rfl⟩ := Datum.isText_iff.mp h
    exact (qualifiedName_path rfl []).symm
  | _ => rfl

theorem ownText_nameRoot (h : n.isWellTyped = true) (hn : n.isNamable = true) :
    ∃ first, n.nameRoot.ownText? = some first ∧
      n.nameRoot.qualifiedName = .ok (.text first) := by
  have hroot := isWellTyped_nameRoot h
  unfold isNamable at hn
  split at hn
  next v hv =>
    rw [hv] at hroot ⊢
    obtain ⟨s, rfl⟩ := Datum.isText_iff.mp hroot
    exact ⟨s, rfl, rfl⟩
  next hthis =>
    rw [hthis]
    exact ⟨"this", rfl, rfl⟩
  next name hname =>
    rw [hname] at hroot ⊢
    obtain ⟨s, rfl⟩ := Datum.isText_iff.mp hroot
    exact ⟨s, rfl, rfl⟩
  next => cases hn

/-- A node is named by the text at the end of its chain of bases and the names of all steps on the
chain. -/
theorem qualifiedName_of_isNamable (h : n.isWellTyped = true) (hn : n.isNamable = true) :
    ∃ first names, n.nameRoot.ownText? = some first ∧ pathSteps names = n.chainSteps ∧
      n.qualifiedName = .ok (.text (".".intercalate (first :: names))) := by
  obtain ⟨first, hfirst, hroot⟩ := ownText_nameRoot h hn
  obtain ⟨names, hnames⟩ := exists_pathSteps (isStep_of_mem_chainSteps h)
  refine ⟨first, names, hfirst, hnames, ?_⟩
  rw [qualifiedName_flat h, ← hnames]
  exact qualifiedName_path hroot names

/-- A well-typed node has a name just if its chain of bases ends at an identifier or an access step.
The name is what that end holds followed by the names of all steps on the chain, from the innermost
value to the outermost, with points between them; without a name the fault is that of the end. And a
value around a value has the name, or the fault, of one value with the steps of both, whatever its
base and the inner steps are. -/
theorem qualifiedName_joins_chain :
    (∀ n : Node, n.isWellTyped = true →
      ((∃ d, n.qualifiedName = .ok d) ↔ n.isNamable = true) ∧
      (∀ e, n.qualifiedName = .error e → e = .unnamable n.nameRoot.typeName ∧
        e.message = "Cannot resolve a name from " ++ n.nameRoot.typeName ++ " node") ∧
      ∀ d, n.qualifiedName = .ok d → ∃ first names, n.nameRoot.ownText? = some first ∧
        pathSteps names = n.chainSteps ∧ d = .text (".".intercalate (first :: names))) ∧
    ∀ (base : Node) (inner outer : List Node), (∀ step ∈ outer, step.isAccess = true) →
      (value (value base inner) outer).qualifiedName =
        (value base (inner ++ outer)).qualifiedName := by
  refine ⟨?_, fun base inner outer => qualifiedName_flatten base inner⟩
  intro n h
  cases hn : n.isNamable with
  | false =>
    rw [qualifiedName_of_not_isNamable hn]
    refine ⟨by simp, ?_, by simp⟩
    rintro e ⟨⟩
    exact ⟨rfl, rfl⟩
  | true =>
    obtain ⟨first, names, hfirst, hnames, hname⟩ := qualifiedName_of_isNamable h hn
    rw [hname]
    refine ⟨by simp, by simp, ?_⟩
    rintro d ⟨⟩
    exact ⟨first, names, hfirst, hnames, rfl⟩

/-- The name `Foo.Bar.baz` in two nested values, and a call in two values, which has none. -/
theorem qualifiedName_joins_chain_nested :
    let named := value (value (literal (.text "Foo")) (pathSteps ["Bar"])) (pathSteps ["baz"])
    let unnamed := value (value (call (literal (.text "load")) []) []) (pathSteps ["get"])
    named.isWellTyped = true ∧ unnamed.isWellTyped = true ∧
      named.qualifiedName = .ok (.text "Foo.Bar.baz") ∧
      (value (literal (.text "Foo")) (pathSteps ["Bar", "baz"])).qualifiedName =
        .ok (.text "Foo.Bar.baz") ∧
      unnamed.qualifiedName = .error (.unnamable "Call") := by
  intro named unnamed
  obtain ⟨hchain, hflatten⟩ := qualifiedName_joins_chain
  have htyped : named.isWellTyped = true := rfl
  have htyped' : unnamed.isWellTyped = true := rfl
  obtain ⟨hnamed, -, hjoined⟩ := hchain named htyped
  obtain ⟨hunnamed, hfault, -⟩ := hchain unnamed htyped'
  have hname : named.qualifiedName = .ok (.text "Foo.Bar.baz") := by
    obtain ⟨d, hd⟩ := hnamed.mpr rfl
    obtain ⟨first, names, hfirst, hnames, rfl⟩ := hjoined d hd
    obtain rfl : "Foo" = first := Option.some.inj hfirst
    obtain rfl : names = ["Bar", "baz"] := pathSteps_injective hnames
    exact hd
  refine ⟨htyped, htyped', hname, ?_, ?_⟩
  · rw [← hname]
    exact (hflatten (literal (.text "Foo")) (pathSteps ["Bar"]) (pathSteps ["baz"])
      (by decide)).symm
  · cases hd : unnamed.qualifiedName with
    | ok d => exact absurd (hunnamed.mp ⟨d, hd⟩) (by decide)
    | error e => rw [(hfault e hd).1]; rfl

end DocHarvest.Node
