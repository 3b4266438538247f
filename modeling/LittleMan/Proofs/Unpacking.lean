import LittleMan.Script
import LittleMan.Proofs.Calls
import LittleMan.Proofs.Words

/-!
# Arguments told apart

Arguments by position are bound first, then those by name, one after the other, and each of them only to a
parameter that has none yet (`bindAll_eq_ok_iff`). Since no two parameters have the same name, it does not matter
in what order the bound arguments are looked through, and a parameter has just the argument that the call gives for
it. So the language of check scripts does what is assumed of a language (`language_documented`).
-/

namespace LittleMan

/-! ### Looking up -/

theorem utf8_injective : Function.Injective utf8 := by
  intro s t hsame
  have hencoded : s.toList.utf8Encode = t.toList.utf8Encode := by
    unfold List.utf8Encode
    exact congrArg List.toByteArray hsame
  exact String.toByteArray_inj.mp (by simpa using hencoded)

theorem Bound.given?_eq_some_iff_mem {bound : Bound} (h : (bound.map fun entry => entry.1.name).Nodup)
    {name : String} {argument : Argument} :
    bound.given? name = some argument ↔ ∃ parameter, parameter.name = name ∧ (parameter, argument) ∈ bound := by
  induction bound with
  | nil => simp [given?]
  | cons entry bound ih =>
    rw [List.map_cons, List.nodup_cons] at h
    by_cases hname : entry.1.name = name
    · have hgiven : given? (entry :: bound) name = some entry.2 := by
        simp [given?, hname]
      rw [hgiven]
      constructor
      · intro hsame
        obtain rfl := Option.some.inj hsame
        exact ⟨entry.1, hname, List.mem_cons_self⟩
      · rintro ⟨parameter, hparameter, hmem⟩
        rcases List.mem_cons.mp hmem with rfl | hmem
        · rfl
        · exact absurd (List.mem_map.mpr ⟨_, hmem, hparameter.trans hname.symm⟩) h.1
    · have hgiven : given? (entry :: bound) name = given? bound name := by
        simp [given?, hname]
      rw [hgiven, ih h.2]
      refine exists_congr fun parameter => and_congr_right fun hparameter => ?_
      rw [List.mem_cons]
      refine (or_iff_right ?_).symm
      rintro rfl
      exact hname hparameter

theorem Bound.given?_eq_none_iff {bound : Bound} {name : String} :
    bound.given? name = none ↔ name ∉ bound.map fun entry => entry.1.name := by
  simp [given?]

namespace Script

/-! ### Binding -/

variable {parameters : List Parameter} {positional : List Argument} {keywords : List (Text × Argument)}
  {bound result : Bound}

theorem mapM_bindPosition_eq_ok_iff {entries : Bound} :
    entries.mapM bindPosition = .ok result ↔
      (∀ entry ∈ entries, entry.2.hasKind entry.1.kind = true) ∧ result = entries := by
  induction entries generalizing result with
  | nil =>
    change Except.ok [] = Except.ok result ↔ _
    rw [Except.ok.injEq, eq_comm]
    simp
  | cons entry entries ih =>
    rw [List.mapM_cons, bind_eq_ok_iff, List.forall_mem_cons]
    constructor
    · rintro ⟨first, hfirst, hrest⟩
      obtain ⟨rest, hrest, hresult⟩ := bind_eq_ok_iff.mp hrest
      obtain ⟨hkinds, rfl⟩ := ih.mp hrest
      obtain rfl := Except.ok.inj hresult
      unfold bindPosition at hfirst
      split at hfirst
      · next hkind =>
        obtain rfl := Except.ok.inj hfirst
        exact ⟨⟨hkind, hkinds⟩, rfl⟩
      · cases hfirst
    · rintro ⟨⟨hkind, hkinds⟩, rfl⟩
      refine ⟨entry, if_pos hkind, ?_⟩
      rw [ih.mpr ⟨hkinds, rfl⟩]
      rfl

/-- An argument as it is given by name. -/
def byName (pair : Parameter × Argument) : Text × Argument := (utf8 pair.1.name, pair.2)

theorem bindKeyword_eq_ok_iff (hnames : (parameters.map Parameter.name).Nodup)
    {entry : Text × Argument} :
    bindKeyword parameters bound entry = .ok result ↔
      ∃ pair, byName pair = entry ∧ pair.1 ∈ parameters ∧ pair.2.hasKind pair.1.kind = true ∧
        bound.given? pair.1.name = none ∧ result = bound ++ [pair] := by
  constructor
  · intro hbind
    unfold bindKeyword at hbind
    split at hbind
    · cases hbind
    · next parameter hfind =>
      have hname : utf8 parameter.name = entry.1 := by simpa using List.find?_some hfind
      split at hbind
      · cases hbind
      · next hgiven =>
        split at hbind
        · next hkind =>
          exact ⟨(parameter, entry.2), Prod.ext hname rfl, List.mem_of_find?_eq_some hfind, hkind,
            by simpa using hgiven, (Except.ok.inj hbind).symm⟩
        · cases hbind
  · rintro ⟨⟨parameter, argument⟩, rfl, hmem, hkind, hgiven, rfl⟩
    have hfind : parameters.find? (fun other => utf8 other.name == utf8 parameter.name) = some parameter := by
      obtain ⟨found, hfound⟩ : ∃ found,
          parameters.find? (fun other => utf8 other.name == utf8 parameter.name) = some found := by
        rw [← Option.isSome_iff_exists, List.find?_isSome]
        exact ⟨parameter, hmem, beq_self_eq_true _⟩
      have hsame : utf8 found.name = utf8 parameter.name := by simpa using List.find?_some hfound
      rw [hfound, List.inj_on_of_nodup_map hnames (List.mem_of_find?_eq_some hfound) hmem (utf8_injective hsame)]
    simp [bindKeyword, byName, hfind, hgiven, hkind]

/-- The pairs that arguments by name add to what is bound. -/
structure Adds (parameters : List Parameter) (bound : Bound) (keywords : List (Text × Argument)) (added : Bound) :
    Prop where
  byName_eq : added.map byName = keywords
  mem : ∀ pair ∈ added, pair.1 ∈ parameters
  hasKind : ∀ pair ∈ added, pair.2.hasKind pair.1.kind = true
  nodup : (added.map fun pair => pair.1.name).Nodup
  unbound : ∀ pair ∈ added, bound.given? pair.1.name = none

theorem adds_cons_iff {pair : Parameter × Argument} {added : Bound} {entry : Text × Argument} :
    Adds parameters bound (entry :: keywords) (pair :: added) ↔
      (byName pair = entry ∧ pair.1 ∈ parameters ∧ pair.2.hasKind pair.1.kind = true ∧
        bound.given? pair.1.name = none) ∧ Adds parameters (bound ++ [pair]) keywords added := by
  have hunbound : (∀ other ∈ added, (bound ++ [pair]).given? other.1.name = none) ↔
      (∀ other ∈ added, bound.given? other.1.name = none) ∧ pair.1.name ∉ added.map fun other => other.1.name := by
    simp only [Bound.given?_eq_none_iff, List.map_append, List.mem_append, not_or, forall_and]
    refine and_congr_right fun _ => ?_
    simp [eq_comm]
  constructor
  · rintro ⟨hbyName, hmem, hkind, hnodup, hfree⟩
    rw [List.map_cons, List.cons.injEq] at hbyName
    rw [List.forall_mem_cons] at hmem hkind hfree
    rw [List.map_cons, List.nodup_cons] at hnodup
    exact ⟨⟨hbyName.1, hmem.1, hkind.1, hfree.1⟩,
      ⟨hbyName.2, hmem.2, hkind.2, hnodup.2, hunbound.mpr ⟨hfree.2, hnodup.1⟩⟩⟩
  · rintro ⟨⟨hbyName, hmem, hkind, hfree⟩, hrest⟩
    obtain ⟨hothers, hfresh⟩ := hunbound.mp hrest.unbound
    refine ⟨?_, ?_, ?_, ?_, ?_⟩
    · rw [List.map_cons, hbyName, hrest.byName_eq]
    · exact List.forall_mem_cons.mpr ⟨hmem, hrest.mem⟩
    · exact List.forall_mem_cons.mpr ⟨hkind, hrest.hasKind⟩
    · exact List.nodup_cons.mpr ⟨hfresh, hrest.nodup⟩
    · exact List.forall_mem_cons.mpr ⟨hfree, hothers⟩

theorem foldlM_bindKeyword_eq_ok_iff (hnames : (parameters.map Parameter.name).Nodup) :
    keywords.foldlM (bindKeyword parameters) bound = .ok result ↔
      ∃ added, Adds parameters bound keywords added ∧ result = bound ++ added := by
  induction keywords generalizing bound with
  | nil =>
    change Except.ok bound = Except.ok result ↔ _
    rw [Except.ok.injEq, eq_comm]
    constructor
    · rintro rfl
      exact ⟨[], ⟨rfl, by simp, by simp, by simp, by simp⟩, by simp⟩
    · rintro ⟨added, hadds, rfl⟩
      rw [List.map_eq_nil_iff.mp hadds.byName_eq, List.append_nil]
  | cons entry keywords ih =>
    rw [List.foldlM_cons, bind_eq_ok_iff]
    constructor
    · rintro ⟨middle, hfirst, hrest⟩
      obtain ⟨pair, hname, hmem, hkind, hfree, rfl⟩ := (bindKeyword_eq_ok_iff hnames).mp hfirst
      obtain ⟨added, hadds, rfl⟩ := ih.mp hrest
      exact ⟨pair :: added, adds_cons_iff.mpr ⟨⟨hname, hmem, hkind, hfree⟩, hadds⟩, by simp⟩
    · rintro ⟨added, hadds, rfl⟩
      obtain ⟨pair, added, rfl, -, -⟩ := List.map_eq_cons_iff.mp hadds.byName_eq
      obtain ⟨⟨hname, hmem, hkind, hfree⟩, hrest⟩ := adds_cons_iff.mp hadds
      refine ⟨bound ++ [pair], (bindKeyword_eq_ok_iff hnames).mpr ⟨pair, hname, hmem, hkind, hfree, rfl⟩, ?_⟩
      exact ih.mpr ⟨added, hrest, by simp⟩

theorem missing?_eq_none_iff :
    missing? parameters bound = none ↔
      ∀ parameter ∈ parameters, parameter.optional = false →
        ∃ argument, bound.given? parameter.name = some argument := by
  unfold missing?
  rw [List.find?_eq_none]
  refine forall₂_congr fun parameter _ => ?_
  cases parameter.optional <;> simp [Option.isNone_iff_eq_none, Option.ne_none_iff_exists']

theorem bindAll_eq_ok_iff (hnames : (parameters.map Parameter.name).Nodup) :
    bindAll parameters positional keywords = .ok bound ↔
      positional.length ≤ parameters.length ∧
      (∀ pair ∈ parameters.zip positional, pair.2.hasKind pair.1.kind = true) ∧
      (∃ added, Adds parameters (parameters.zip positional) keywords added ∧
        bound = parameters.zip positional ++ added) ∧
      ∀ parameter ∈ parameters, parameter.optional = false →
        ∃ argument, bound.given? parameter.name = some argument := by
  unfold bindAll
  by_cases hcount : parameters.length < positional.length
  · rw [if_pos hcount]
    refine iff_of_false (by simp [throw, throwThe, MonadExceptOf.throw, bind, Except.bind]) ?_
    rintro ⟨hfits, -⟩
    omega
  · rw [if_neg hcount, ← missing?_eq_none_iff]
    simp only [bind_eq_ok_iff, mapM_bindPosition_eq_ok_iff, foldlM_bindKeyword_eq_ok_iff hnames]
    constructor
    · rintro ⟨_, ⟨hkinds, rfl⟩, bound', hadded, hmissing⟩
      split at hmissing
      · cases hmissing
      · next hnone =>
        obtain rfl := Except.ok.inj hmissing
        exact ⟨by omega, hkinds, hadded, hnone⟩
    · rintro ⟨-, hkinds, hadded, hnone⟩
      refine ⟨_, ⟨hkinds, rfl⟩, bound, hadded, ?_⟩
      rw [hnone]
      rfl

end Script

/-! ### The arguments that a call gives -/

namespace Call

open Script (Adds byName)

variable {call : Call} {bound added : Bound} {parameter : Parameter} {argument : Argument}
  {parameters : List Parameter} {positional : List Argument}

theorem map_fst_zip (h : positional.length ≤ parameters.length) :
    (parameters.zip positional).map Prod.fst = parameters.take positional.length := by
  induction parameters generalizing positional with
  | nil => simp
  | cons parameter parameters ih =>
    cases positional with
    | nil => rfl
    | cons argument positional => simp [ih (Nat.le_of_succ_le_succ h)]

theorem exists_map_byName {keywords : List (Text × Argument)}
    (h : ∀ entry ∈ keywords, ∃ parameter ∈ parameters, utf8 parameter.name = entry.1) :
    ∃ added : Bound, added.map byName = keywords ∧ ∀ pair ∈ added, pair.1 ∈ parameters := by
  induction keywords with
  | nil => exact ⟨[], rfl, by simp⟩
  | cons entry keywords ih =>
    rw [List.forall_mem_cons] at h
    obtain ⟨parameter, hmem, hname⟩ := h.1
    obtain ⟨added, hadded, hothers⟩ := ih h.2
    refine ⟨(parameter, entry.2) :: added, ?_, List.forall_mem_cons.mpr ⟨hmem, hothers⟩⟩
    rw [List.map_cons, hadded, byName, hname]

/-- If the arguments are right, those by name can be added to those by position. -/
theorem Proper.exists_adds (hproper : call.Proper) :
    ∃ added, Adds call.tool.signature (call.tool.signature.zip call.positional) call.keywords added := by
  obtain ⟨added, hadded, hmem⟩ := exists_map_byName hproper.known
  have hentry : ∀ pair ∈ added, byName pair ∈ call.keywords := by
    intro pair hpair
    rw [← hadded]
    exact List.mem_map_of_mem hpair
  refine ⟨added, hadded, hmem, ?_, ?_, ?_⟩
  · intro pair hpair
    exact hproper.kinds _ (hmem pair hpair) _ (.keyword (hentry pair hpair))
  · have hdistinct := hproper.distinct
    rw [← hadded, List.map_map] at hdistinct
    exact List.Nodup.of_map utf8 (by simpa [Function.comp_def, byName] using hdistinct)
  · intro pair hpair
    rw [Bound.given?_eq_none_iff]
    intro hbound
    obtain ⟨other, hother, hname⟩ := List.mem_map.mp hbound
    have htaken : other.1 ∈ call.tool.signature.take call.positional.length := by
      rw [← map_fst_zip hproper.fits]
      exact List.mem_map_of_mem hother
    refine hproper.apart _ htaken ?_
    rw [hname]
    exact List.mem_map_of_mem (hentry pair hpair)

section Adds

variable (hadds : Adds call.tool.signature (call.tool.signature.zip call.positional) call.keywords added)
include hadds

/-- What is bound is what the call gives. -/
theorem mem_bound_iff (hmem : parameter ∈ call.tool.signature) :
    (parameter, argument) ∈ call.tool.signature.zip call.positional ++ added ↔ call.Gives parameter argument := by
  rw [List.mem_append, List.mem_iff_getElem?]
  constructor
  · rintro (⟨i, hpair⟩ | hpair)
    · obtain ⟨hparameter, hargument⟩ := List.getElem?_zip_eq_some.mp hpair
      exact .position hparameter hargument
    · refine .keyword ?_
      rw [← hadds.byName_eq]
      exact List.mem_map_of_mem hpair
  · rintro (@⟨i, hparameter, hargument⟩ | hentry)
    · exact .inl ⟨i, List.getElem?_zip_eq_some.mpr ⟨hparameter, hargument⟩⟩
    · rw [← hadds.byName_eq] at hentry
      obtain ⟨pair, hpair, hsame⟩ := List.mem_map.mp hentry
      obtain ⟨hname, rfl⟩ := Prod.mk.inj hsame
      rw [List.inj_on_of_nodup_map call.tool.nodup_signature hmem (hadds.mem pair hpair)
        (utf8_injective hname.symm)]
      exact .inr hpair

theorem mem_signature_of_mem_bound {pair : Parameter × Argument}
    (hpair : pair ∈ call.tool.signature.zip call.positional ++ added) : pair.1 ∈ call.tool.signature := by
  rcases List.mem_append.mp hpair with hzip | hadded
  · exact (List.of_mem_zip hzip).1
  · exact hadds.mem pair hadded

variable (hfits : call.positional.length ≤ call.tool.signature.length)
include hfits

theorem nodup_bound :
    ((call.tool.signature.zip call.positional ++ added).map fun pair => pair.1.name).Nodup := by
  have hzip : ((call.tool.signature.zip call.positional).map fun pair => pair.1.name).Nodup := by
    have hmap := congrArg (List.map Parameter.name) (map_fst_zip hfits)
    rw [List.map_map, List.map_take] at hmap
    exact hmap ▸ call.tool.nodup_signature.take
  rw [List.map_append]
  refine hzip.append hadds.nodup ?_
  intro name hbound hadded
  obtain ⟨pair, hpair, rfl⟩ := List.mem_map.mp hadded
  exact Bound.given?_eq_none_iff.mp (hadds.unbound pair hpair) hbound

theorem given?_bound_iff (hmem : parameter ∈ call.tool.signature) :
    Bound.given? (call.tool.signature.zip call.positional ++ added) parameter.name = some argument ↔
      call.Gives parameter argument := by
  rw [Bound.given?_eq_some_iff_mem (nodup_bound hadds hfits), ← mem_bound_iff hadds hmem]
  constructor
  · rintro ⟨other, hname, hother⟩
    have hsame := List.inj_on_of_nodup_map call.tool.nodup_signature (mem_signature_of_mem_bound hadds hother)
      hmem hname
    exact hsame ▸ hother
  · intro hbound
    exact ⟨parameter, rfl, hbound⟩

theorem proper_of_adds
    (hkinds : ∀ pair ∈ call.tool.signature.zip call.positional, pair.2.hasKind pair.1.kind = true)
    (hrequired : ∀ parameter ∈ call.tool.signature, parameter.optional = false →
      ∃ argument, call.Gives parameter argument) : call.Proper where
  fits := hfits
  known := by
    rw [← hadds.byName_eq]
    intro entry hentry
    obtain ⟨pair, hpair, rfl⟩ := List.mem_map.mp hentry
    exact ⟨pair.1, hadds.mem pair hpair, rfl⟩
  distinct := by
    have hnames := hadds.nodup.map utf8_injective
    rw [List.map_map] at hnames
    rw [← hadds.byName_eq, List.map_map]
    exact hnames
  apart := by
    rw [← map_fst_zip hfits, ← hadds.byName_eq, List.map_map]
    intro parameter htaken hnamed
    obtain ⟨first, hfirst, rfl⟩ := List.mem_map.mp htaken
    obtain ⟨second, hsecond, hname⟩ := List.mem_map.mp hnamed
    refine Bound.given?_eq_none_iff.mp (hadds.unbound second hsecond) ?_
    exact List.mem_map.mpr ⟨first, hfirst, utf8_injective hname.symm⟩
  kinds := by
    intro parameter hmem argument hgives
    rcases List.mem_append.mp ((mem_bound_iff hadds hmem).mpr hgives) with hzip | hadded
    · exact hkinds _ hzip
    · exact hadds.hasKind _ hadded
  required := hrequired

end Adds

end Call

/-! ### The language of check scripts -/

namespace Script

variable {call : Call} {bound : Bound}

theorem unpack_eq_ok_iff (function : String) :
    unpack function call.tool.signature call.positional call.keywords = .ok bound ↔
      call.Proper ∧ ∃ added,
        Adds call.tool.signature (call.tool.signature.zip call.positional) call.keywords added ∧
          bound = call.tool.signature.zip call.positional ++ added := by
  have hmapped : unpack function call.tool.signature call.positional call.keywords = .ok bound ↔
      bindAll call.tool.signature call.positional call.keywords = .ok bound := by
    unfold unpack
    cases bindAll call.tool.signature call.positional call.keywords <;> simp [Except.mapError]
  rw [hmapped, bindAll_eq_ok_iff call.tool.nodup_signature]
  constructor
  · rintro ⟨hfits, hkinds, ⟨added, hadds, rfl⟩, hrequired⟩
    refine ⟨Call.proper_of_adds hadds hfits hkinds ?_, added, hadds, rfl⟩
    intro parameter hmem hoptional
    obtain ⟨argument, hgiven⟩ := hrequired parameter hmem hoptional
    exact ⟨argument, (Call.given?_bound_iff hadds hfits hmem).mp hgiven⟩
  · rintro ⟨hproper, added, hadds, rfl⟩
    refine ⟨hproper.fits, ?_, ⟨added, hadds, rfl⟩, ?_⟩
    · intro pair hpair
      have hmem := (List.of_mem_zip hpair).1
      exact hproper.kinds _ hmem _ ((Call.mem_bound_iff hadds hmem).mp (List.mem_append_left _ hpair))
    · intro parameter hmem hoptional
      obtain ⟨argument, hgives⟩ := hproper.required parameter hmem hoptional
      exact ⟨argument, (Call.given?_bound_iff hadds hproper.fits hmem).mpr hgives⟩

theorem int32_eq_ok_iff (item : Item) (n : Int) :
    int32 item = .ok n ↔ item = .number n ∧ -2147483648 ≤ n ∧ n ≤ 2147483647 := by
  cases item with
  | other type => simp [int32]
  | number m =>
    rw [int32, Item.number.injEq]
    split
    · refine iff_of_false (by simp) ?_
      rintro ⟨rfl, hlow, hhigh⟩
      omega
    · rw [Except.ok.injEq]
      constructor
      · rintro rfl
        exact ⟨rfl, by omega, by omega⟩
      · exact And.left

theorem language_documented : language.Documented where
  unpack_ok_iff call := by
    constructor
    · rintro ⟨bound, hbound⟩
      exact ((unpack_eq_ok_iff _).mp hbound).1
    · intro hproper
      obtain ⟨added, hadds⟩ := hproper.exists_adds
      exact ⟨_, (unpack_eq_ok_iff _).mpr ⟨hproper, added, hadds, rfl⟩⟩
  unpack_gives h parameter hmem argument := by
    obtain ⟨hproper, added, hadds, rfl⟩ := (unpack_eq_ok_iff _).mp h
    exact Call.given?_bound_iff hadds hproper.fits hmem
  int32_eq_ok_iff := int32_eq_ok_iff

end Script

end LittleMan
