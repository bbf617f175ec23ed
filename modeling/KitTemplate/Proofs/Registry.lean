import Mathlib.Data.List.Nodup
import Mathlib.Order.Bounds.Basic
import KitTemplate.Proofs.Table
import KitTemplate.Registry

/-! Registries after any registrations. A registration takes over every keyword of its directive, so
each keyword leads to the last directive that was registered with it, as its name or as an alias
(`IsRecord.register`). Directives are told apart by their places in the order of registration, but
nothing hangs on whether equal directives are one: the later of two takes over all keywords of the
earlier, so the keywords lead to one of them at most. -/

namespace KitTemplate.Registry

variable {forms : List DirectiveForm} {keyword : Text} {place : Nat}

/-- The places of the directives that have a keyword as their name or among their aliases. -/
def placesUnder (forms : List DirectiveForm) (keyword : Text) : Set Nat :=
  {place | ∃ form, forms[place]? = some form ∧ keyword ∈ form.keywords}

theorem lt_of_mem_placesUnder (hplace : place ∈ placesUnder forms keyword) :
    place < forms.length := by
  obtain ⟨form, hform, -⟩ := hplace
  exact (List.getElem?_eq_some_iff.1 hform).1

theorem mem_placesUnder_concat (form : DirectiveForm) :
    place ∈ placesUnder (forms ++ [form]) keyword ↔
      place ∈ placesUnder forms keyword ∨ place = forms.length ∧ keyword ∈ form.keywords := by
  rcases Nat.lt_trichotomy place forms.length with hlt | rfl | hgt
  · show (∃ form', (forms ++ [form])[place]? = some form' ∧ _) ↔ _
    rw [List.getElem?_append_left hlt, or_iff_left fun heq => hlt.ne heq.1]
    rfl
  · show (∃ form', (forms ++ [form])[forms.length]? = some form' ∧ _) ↔ _
    rw [List.getElem?_concat_length, or_iff_right fun hmem => (lt_of_mem_placesUnder hmem).ne rfl]
    simp
  · refine iff_of_false (fun hmem => ?_) ?_
    · have hlt := lt_of_mem_placesUnder hmem
      simp only [List.length_append, List.length_singleton] at hlt
      omega
    · rintro (hmem | ⟨rfl, -⟩)
      · exact absurd (lt_of_mem_placesUnder hmem) hgt.not_gt
      · exact absurd hgt (Nat.lt_irrefl _)

/-- The directive that is registered last is the last one under its keywords, and changes nothing
under any other. -/
theorem isGreatest_placesUnder_concat (form : DirectiveForm) :
    IsGreatest (placesUnder (forms ++ [form]) keyword) place ↔
      if keyword ∈ form.keywords then place = forms.length
      else IsGreatest (placesUnder forms keyword) place := by
  split
  · rename_i hkeyword
    have hlast : IsGreatest (placesUnder (forms ++ [form]) keyword) forms.length := by
      refine ⟨(mem_placesUnder_concat form).2 (Or.inr ⟨rfl, hkeyword⟩), fun other hother => ?_⟩
      rcases (mem_placesUnder_concat form).1 hother with hbefore | ⟨rfl, -⟩
      · exact (lt_of_mem_placesUnder hbefore).le
      · exact le_rfl
    exact ⟨fun hplace => hplace.unique hlast, fun hplace => hplace ▸ hlast⟩
  · rename_i hkeyword
    have hsame : placesUnder (forms ++ [form]) keyword = placesUnder forms keyword := by
      ext other
      rw [mem_placesUnder_concat, or_iff_left fun hmem => hkeyword hmem.2]
    rw [hsame]

/-- The keywords of a registry stand in the order of their first registration, and each leads to the
directive that was registered last under it. -/
structure IsRecord (registry : Registry) : Prop where
  keys : registry.keywords.map Prod.fst = (registry.forms.flatMap (·.keywords)).eraseDups
  leads : ∀ keyword place, registry.keywords.lookup keyword = some place ↔
    IsGreatest (placesUnder registry.forms keyword) place

theorem isRecord_empty : IsRecord {} where
  keys := rfl
  leads keyword place := by
    refine iff_of_false nofun ?_
    rintro ⟨⟨form, hform, -⟩, -⟩
    cases hform

theorem IsRecord.register {registry : Registry} (hrecord : registry.IsRecord)
    (form : DirectiveForm) : (registry.register form).IsRecord where
  keys := by
    have hkeywords :
        (form.keywords.map (·, registry.forms.length)).map Prod.fst = form.keywords := by
      rw [List.map_map]
      exact List.map_id _
    show (Table.putAll registry.keywords _).map Prod.fst =
      ((registry.forms ++ [form]).flatMap (·.keywords)).eraseDups
    rw [Table.keys_putAll hrecord.keys, hkeywords, List.flatMap_append, List.flatMap_singleton]
  leads keyword place := by
    show (Table.putAll registry.keywords _).lookup keyword = some place ↔
      IsGreatest (placesUnder (registry.forms ++ [form]) keyword) place
    rw [Table.lookup_putAll_map, isGreatest_placesUnder_concat]
    split
    · exact ⟨fun heq => (Option.some.inj heq).symm, fun heq => congrArg some heq.symm⟩
    · exact hrecord.leads keyword place

/-- The registry after some directives have been registered, one after another. -/
def registerAll (registry : Registry) (forms : List DirectiveForm) : Registry :=
  forms.foldl register registry

theorem IsRecord.registerAll {registry : Registry} (hrecord : registry.IsRecord)
    (forms : List DirectiveForm) : (registry.registerAll forms).IsRecord := by
  induction forms generalizing registry with
  | nil => exact hrecord
  | cons form rest ih => exact ih (hrecord.register form)

theorem forms_registerAll (registry : Registry) (forms : List DirectiveForm) :
    (registry.registerAll forms).forms = registry.forms ++ forms := by
  induction forms generalizing registry with
  | nil => exact (List.append_nil _).symm
  | cons form rest ih =>
      show ((registry.register form).registerAll rest).forms = _
      rw [ih]
      exact List.append_assoc _ [form] rest

/-! ### What the keywords lead to -/

namespace IsRecord

variable {registry : Registry} (hrecord : registry.IsRecord)

include hrecord

theorem mem_keywords_iff : (keyword, place) ∈ registry.keywords ↔
    IsGreatest (placesUnder registry.forms keyword) place := by
  have hkeys : (registry.keywords.map Prod.fst).Nodup := by
    rw [hrecord.keys]
    exact Table.nodup_eraseDups _
  rw [← hrecord.leads, Table.lookup_eq_some_iff_mem hkeys]

/-- A keyword of some directive leads to a directive. -/
theorem exists_lookup (hkeyword : keyword ∈ registry.forms.flatMap (·.keywords)) :
    ∃ place form, IsGreatest (placesUnder registry.forms keyword) place ∧
      registry.forms[place]? = some form ∧ registry.lookup keyword = some form := by
  rw [← List.mem_eraseDups, ← hrecord.keys] at hkeyword
  obtain ⟨⟨_, place⟩, hentry, rfl⟩ := List.mem_map.1 hkeyword
  have hlast := hrecord.mem_keywords_iff.1 hentry
  obtain ⟨form, hform, -⟩ := hlast.1
  refine ⟨place, form, hlast, hform, ?_⟩
  simp only [lookup, (hrecord.leads _ _).2 hlast, Option.bind_eq_bind, Option.bind_some, hform]

/-- Equal directives are not both led to. -/
theorem eq_of_form_eq {entry other : Text × Nat} (hentry : entry ∈ registry.keywords)
    (hother : other ∈ registry.keywords)
    (hforms : registry.forms[entry.2]? = registry.forms[other.2]?) : entry.2 = other.2 := by
  obtain ⟨⟨form, hform, hkeyword⟩, hlast⟩ := hrecord.mem_keywords_iff.1 hentry
  obtain ⟨⟨form', hform', hkeyword'⟩, hlast'⟩ := hrecord.mem_keywords_iff.1 hother
  rw [hforms, hform'] at hform
  obtain rfl := Option.some.inj hform
  -- each has the keyword that leads to the other, so neither is registered before the other
  exact le_antisymm (hlast' ⟨form', hforms.trans hform', hkeyword'⟩)
    (hlast ⟨form', hform', hkeyword⟩)

end IsRecord

/-- How many keywords stand before the first one that leads to the directive at a place. -/
def rank (registry : Registry) (place : Nat) : Nat := (registry.keywords.map (·.2)).idxOf place

/-- The directives that keywords lead to, each once, in the order of the first such keyword. -/
structure IsListing (registry : Registry) (places : List Nat) (listed : List DirectiveForm) :
    Prop where
  forms : places.map (registry.forms[·]?) = listed.map some
  mem_iff : ∀ place, place ∈ places ↔ ∃ keyword, (keyword, place) ∈ registry.keywords
  ordered : places.Pairwise fun place next => registry.rank place < registry.rank next
  distinct : listed.Nodup

theorem IsRecord.exists_isListing {registry : Registry} (hrecord : registry.IsRecord) :
    ∃ places listed, registry.IsListing places listed ∧
      registry.reachable = listed ++ [variableForm] := by
  have hmem (place : Nat) : place ∈ (registry.keywords.map (·.2)).eraseDups ↔
      ∃ keyword, (keyword, place) ∈ registry.keywords := by
    rw [List.mem_eraseDups, List.mem_map]
    exact ⟨fun ⟨entry, hentry, hplace⟩ => ⟨entry.1, hplace ▸ hentry⟩,
      fun ⟨keyword, hentry⟩ => ⟨_, hentry, rfl⟩⟩
  have hsome : ∀ form ∈ (registry.keywords.map (·.2)).eraseDups.map (registry.forms[·]?),
      form.isSome := by
    intro form hform
    obtain ⟨place, hplace, rfl⟩ := List.mem_map.1 hform
    obtain ⟨keyword, hentry⟩ := (hmem place).1 hplace
    obtain ⟨⟨form, hform, -⟩, -⟩ := hrecord.mem_keywords_iff.1 hentry
    rw [hform]
    rfl
  have hforms : (registry.keywords.map (·.2)).eraseDups.map (registry.forms[·]?) =
      ((registry.keywords.map (·.2)).eraseDups.filterMap (registry.forms[·]?)).map some := by
    rw [List.map_filterMap_some_eq_filter_map_isSome, List.filter_eq_self.2 hsome]
  refine ⟨_, _, ⟨hforms, hmem, Table.pairwise_idxOf_eraseDups _, ?_⟩, rfl⟩
  refine List.Nodup.of_map some (hforms ▸ (Table.nodup_eraseDups _).map_on ?_)
  intro place hplace other hother hsame
  obtain ⟨keyword, hentry⟩ := (hmem place).1 hplace
  obtain ⟨keyword', hentry'⟩ := (hmem other).1 hother
  exact hrecord.eq_of_form_eq hentry hentry' hsame

theorem inCategory_eq {registry : Registry} {listed : List DirectiveForm}
    (hreachable : registry.reachable = listed ++ [variableForm]) (category : Category) :
    registry.inCategory category = listed.filter (·.category = category) ++
      if category = .values then [variableForm] else [] := by
  rw [inCategory, hreachable, List.filter_append]
  cases category <;> rfl

/-- Whatever is registered after the directives that templates are written with, each keyword leads
to the directive that was registered last under it, and keeps the place among the keywords that its
first registration gave it. A reserved keyword, in any letter case, means the directive that was
registered last under its small letters; every other keyword names a variable. The directives that
keywords lead to are listed once each, in their category and in the order of the first such keyword,
and the directive for variables comes behind them in its own. -/
theorem dispatch_survives_registrations (calls : List DirectiveForm) :
    let forms := importForm :: partialForm :: calls
    let registry := standard.registerAll calls
    registry.forms = forms ∧
    registry.keywords.map Prod.fst = (forms.flatMap (·.keywords)).eraseDups ∧
    (∀ keyword place, (keyword, place) ∈ registry.keywords ↔
      IsGreatest (placesUnder forms keyword) place) ∧
    (∀ keyword, isReserved keyword → ∃ place form,
      IsGreatest (placesUnder forms keyword.lowerCase) place ∧ forms[place]? = some form ∧
      registry.lookup keyword.lowerCase = some form ∧ registry.find keyword = form) ∧
    (∀ keyword, ¬ isReserved keyword → registry.find keyword = variableForm) ∧
    ∃ places listed, registry.IsListing places listed ∧ ∀ category,
      registry.inCategory category = listed.filter (·.category = category) ++
        if category = .values then [variableForm] else [] := by
  intro forms registry
  have hrecord : registry.IsRecord := isRecord_empty.registerAll forms
  have hforms : registry.forms = forms := forms_registerAll {} forms
  refine ⟨hforms, hforms ▸ hrecord.keys, fun _ _ => hforms ▸ hrecord.mem_keywords_iff, ?_, ?_, ?_⟩
  · intro keyword hreserved
    have hkeyword : keyword.lowerCase ∈ registry.forms.flatMap (·.keywords) := by
      have hmem : keyword.lowerCase ∈ reserved := List.contains_iff_mem.1 hreserved
      have hstandard :
          ∀ name ∈ reserved, name ∈ [importForm, partialForm].flatMap (·.keywords) := by
        decide
      rw [hforms]
      show _ ∈ ([importForm, partialForm] ++ calls).flatMap (·.keywords)
      rw [List.flatMap_append]
      exact List.mem_append_left _ (hstandard _ hmem)
    obtain ⟨place, form, hlast, hform, hlookup⟩ := hrecord.exists_lookup hkeyword
    rw [hforms] at hlast hform
    refine ⟨place, form, hlast, hform, hlookup, ?_⟩
    rw [find, if_pos hreserved, hlookup]
    rfl
  · intro keyword hunreserved
    rw [find, if_neg hunreserved]
  · obtain ⟨places, listed, hlisting, hreachable⟩ := hrecord.exists_isListing
    exact ⟨places, listed, hlisting, inCategory_eq hreachable⟩

/-- A keyword that is taken over keeps its place among the others, so the directive that takes it
over is listed before one that is left with later keywords only. -/
example :
    let taker : DirectiveForm :=
      { name := "@import".toList, category := .imports, description := [] }
    (standard.registerAll [taker]).inCategory .imports = [taker, importForm] := by
  decide

end KitTemplate.Registry
