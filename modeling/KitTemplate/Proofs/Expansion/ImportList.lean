import KitTemplate.Proofs.Expansion.Layout
import KitTemplate.Proofs.Import.Entry
import KitTemplate.Proofs.Source.Reading
import KitTemplate.Proofs.Text.LetterCase

/-! Import lists. What an entry of a list does depends on its spec and on the line of the directive
(`expandEntry_congr`), so a list means its specs, one import each (`expandText_import_list`). The
one difference is in the lines of what follows, if the list is written over several of them. -/

namespace KitTemplate

open Text

/-! ### The keyword of an import -/

/-- The keyword of an import list, in any letter case. -/
def Keyword.IsImport (keyword : Text) : Prop :=
  keyword.lowerCase = "@import".toList ∨ keyword.lowerCase = "@include".toList

instance (keyword : Text) : Decidable (Keyword.IsImport keyword) :=
  inferInstanceAs (Decidable (keyword.lowerCase = _ ∨ keyword.lowerCase = _))

namespace Keyword.IsImport

variable {keyword : Text} (hkeyword : IsImport keyword)

include hkeyword

theorem exists_lowerCase : ∃ rest, keyword.lowerCase = '@' :: 'i' :: rest ∧
    ∀ l ∈ keyword.lowerCase, IsPlainLatin l ∧ (l = '@' ∨ l.isAlpha) := by
  rcases hkeyword with hword | hword
  · exact ⟨"mport".toList, hword, by rw [hword]; simp [IsPlainLatin]⟩
  · exact ⟨"nclude".toList, hword, by rw [hword]; simp [IsPlainLatin]⟩

theorem map_smallLetter : keyword.map smallLetter = keyword.lowerCase := by
  obtain ⟨rest, -, hletters⟩ := hkeyword.exists_lowerCase
  exact map_smallLetter_of_lowerCase fun l hl => (hletters l hl).1

/-- The characters of an import keyword are its sigil and ASCII letters. -/
theorem cases_of_mem {c : Char} (hc : c ∈ keyword) : c = '@' ∨ c.isAlpha := by
  obtain ⟨rest, -, hletters⟩ := hkeyword.exists_lowerCase
  have hsmall := hletters (smallLetter c)
    (hkeyword.map_smallLetter ▸ List.mem_map_of_mem hc)
  rcases cases_of_smallLetter hsmall.1 with hsame | ⟨hletter, -⟩
  · rw [hsame] at hsmall
    exact hsmall.2
  · exact Or.inr hletter

theorem isName : IsName keyword where
  starts := by
    obtain ⟨rest, hlower, -⟩ := hkeyword.exists_lowerCase
    have hmap := hkeyword.map_smallLetter
    rw [hlower] at hmap
    obtain ⟨sigil, tail, rfl, hsigil, htail⟩ := List.map_eq_cons_iff.1 hmap
    obtain ⟨letter, tail, rfl, hletter, -⟩ := List.map_eq_cons_iff.1 htail
    refine startsText_iff.2 ⟨sigil, letter, tail, rfl, ?_, ?_⟩
    · have hsmall : IsPlainLatin (smallLetter sigil) := by rw [hsigil]; decide
      rcases cases_of_smallLetter hsmall with hsame | ⟨-, halpha⟩
      · rw [← hsame, hsigil]
        rfl
      · rw [hsigil] at halpha
        cases halpha
    · have hsmall : IsPlainLatin (smallLetter letter) := by rw [hletter]; decide
      rcases cases_of_smallLetter hsmall with hsame | ⟨halpha, -⟩
      · rw [← hsame, hletter]
        rfl
      · exact halpha
  unended c hc := by
    rcases hkeyword.cases_of_mem hc with rfl | hletter
    · decide
    · exact not_endsKeyword_of_isAlpha hletter
  unmarked hmark := by
    have hdash : '-' ∈ keyword := hmark.subset (by simp [commentClose])
    exact absurd (hkeyword.cases_of_mem hdash) (by decide)

theorem unbroken : '\n' ∉ keyword ∧ '\r' ∉ keyword :=
  ⟨fun hc => absurd (hkeyword.cases_of_mem hc) (by decide),
    fun hc => absurd (hkeyword.cases_of_mem hc) (by decide)⟩

theorem category_find : (Registry.standard.find keyword).category = .imports := by
  rw [Registry.find, Registry.isReserved]
  rcases hkeyword with hword | hword <;> rw [hword] <;> decide

end Keyword.IsImport

/-- A comment with a keyword and a text behind it. -/
def commentOf (keyword text : Text) : Text :=
  commentOpen ++ ([' '] ++ (keyword ++ ' ' :: text) ++ [' ']) ++ commentClose

section Comments

variable {keyword text : Text}

theorem Directive.begins_commentOf (hname : Keyword.IsName keyword) (text : Text) :
    begins (commentOf keyword text) := by
  have hgap : ∀ c ∈ [' '], isLayout c := List.forall_mem_singleton.2 rfl
  have hbegins := begins_of_startsText hgap hname.starts (' ' :: text ++ [' '] ++ commentClose)
  simpa [commentOf] using hbegins

theorem not_isInfix_commentOf (hname : Keyword.IsName keyword) (htext : ¬ commentClose <:+: text) :
    ¬ commentClose <:+: [' '] ++ (keyword ++ ' ' :: text) ++ [' '] :=
  not_isInfix_append_gaps (by decide) (by decide)
    (not_isInfix_body hname.unmarked htext)

theorem Keyword.ofBody?_commentOf (hname : Keyword.IsName keyword) {value : Text}
    (hstrip : strip text = value) (hvalue : value.IsTrimmed) (hbegins : ∀ c ∈ value.head?, ¬ isGap c) :
    ofBody? ([' '] ++ (keyword ++ ' ' :: text) ++ [' ']) = some (keyword, some value) := by
  obtain ⟨sigil, letter, name, rfl, hsigil, -⟩ := startsText_iff.1 hname.starts
  obtain ⟨gap, gap', htext, hgap, hgap'⟩ := exists_strip text
  have hblank : ∀ c ∈ [' '], isBlank c := List.forall_mem_singleton.2 rfl
  have hread := ofBody?_of_isTrimmed_append hblank hgap
    (List.forall_mem_append.2 ⟨hgap', hblank⟩) hsigil (List.forall_mem_cons.1 hname.unended).2
    hvalue hbegins
  have hbody : [' '] ++ (sigil :: letter :: name ++ ' ' :: text) ++ [' '] =
      [' '] ++ (sigil :: (letter :: name) ++ ' ' :: (gap ++ value)) ++ (gap' ++ [' ']) := by
    conv_lhs => rw [htext, hstrip]
    simp
  rw [hbody, hread]

end Comments

namespace Workplace

open Expansion

variable {place : Workplace} {file : Path} {keyword : Text}

theorem concat_congr {α : Type} {work work' : α → Expansion Text} {things : List α}
    (hwork : ∀ thing ∈ things, work thing = work' thing) :
    concat work things = concat work' things := by
  induction things with
  | nil => rfl
  | cons first rest ih =>
      obtain ⟨hfirst, hrest⟩ := List.forall_mem_cons.1 hwork
      rw [concat, concat, hfirst, ih hrest]

/-- What an entry does depends on its spec and on the line of its directive. -/
theorem expandEntry_congr (importFile : Path → Expansion Text) {directive directive' : Directive}
    (hline : directive'.line = directive.line) {entry entry' : Text}
    (hclean : Import.clean entry' = Import.clean entry) (hspec : Import.clean entry ≠ []) :
    place.expandEntry importFile file directive' entry' =
      place.expandEntry importFile file directive entry := by
  unfold expandEntry expandFound
  rw [hclean, hline]
  simp only [if_neg hspec]

/-- An import directive does what its specs do, on its line. -/
theorem run_expandDirective_of_isImport (hkeyword : Keyword.IsImport keyword)
    {directive directive' : Directive} (hdirective : directive.keyword = keyword) {list : Text}
    (hvalue : directive.value = some list) {specs : List Text}
    (hlist : (splitOn ',' list).map Import.clean = specs) (hspecs : ∀ spec ∈ specs, Import.IsSpec spec)
    (hline : directive.line = directive'.line) (context : Context) :
    ∃ noted, noted.Agrees context ∧
      (place.expandDirective place.compileFile file directive).run context =
        (concat (place.expandEntry place.compileFile file directive') specs).run noted := by
  have hentries : directive.importEntries = splitOn ',' list := by
    rw [Directive.importEntries, hdirective, hkeyword.category_find, hvalue]
  have hsame : concat (place.expandEntry place.compileFile file directive) (splitOn ',' list) =
      concat (place.expandEntry place.compileFile file directive') specs := by
    rw [← hlist, concat_map]
    apply concat_congr
    intro entry hentry
    have hspec : Import.IsSpec (Import.clean entry) :=
      hspecs _ (hlist ▸ List.mem_map_of_mem hentry)
    have hclean : Import.clean entry = Import.clean (Import.clean entry) := hspec.clean_eq.symm
    apply expandEntry_congr place.compileFile hline hclean
    rw [hspec.clean_eq]
    exact hspec.trimmed.nonempty
  obtain ⟨noted, hnoted, hrun⟩ := place.run_expandDirective_of_importEntries place.compileFile file
    (hentries ▸ splitOn_ne_nil ',' list) context
  exact ⟨noted, hnoted, by rw [hrun, hentries, hsame]⟩

/-- The comment of one spec reaches over no line. -/
theorem lineBreaks_commentOf (hkeyword : Keyword.IsImport keyword) {spec : Text}
    (hspec : Import.IsSpec spec) (text : Text) :
    lineBreaks (commentOf keyword spec ++ text) = lineBreaks text := by
  apply lineBreaks_append_left
  obtain ⟨hfeed, hreturn⟩ := hkeyword.unbroken
  obtain ⟨hfeed', hreturn'⟩ := hspec.unbroken
  simp [commentOf, commentOpen, commentClose, hfeed, hreturn, hfeed', hreturn']

/-- Imports of some specs, one comment each, in front of a text. -/
theorem exists_directives (hkeyword : Keyword.IsImport keyword) (file : Path) (line : Int)
    {specs : List Text} (hne : specs ≠ []) (hspecs : ∀ spec ∈ specs, Import.IsSpec spec)
    (following : Text) : ∃ directives : List Directive,
      List.Forall₂ (fun spec directive => directive.keyword = keyword ∧
        directive.value = some spec ∧ directive.line = line) specs directives ∧
      place.expandFrom line file (specs.flatMap (commentOf keyword) ++ following) = do
        let text ← concat (place.expandDirective place.compileFile file) directives
        return text ++ (← place.expandFrom (line + lineBreaks following.leadingBreak) file
          following.dropLineBreak) := by
  induction specs with
  | nil => exact absurd rfl hne
  | cons spec rest ih =>
      obtain ⟨hspec, hrest⟩ := List.forall_mem_cons.1 hspecs
      have hbody := Keyword.ofBody?_commentOf hkeyword.isName hspec.trimmed.strip_eq hspec.trimmed
        hspec.not_isGap
      obtain ⟨directive, others, hpieces, hfound, hvalue, hline, hothers⟩ :=
        Cursor.pieces_of_ofBody? (not_isInfix_commentOf hkeyword.isName hspec.unmarked) hbody
          (Directive.begins_commentOf hkeyword.isName spec)
          (rest.flatMap (commentOf keyword) ++ following) line
      have hfrom := @expandFrom_of_pieces place file _ _ _ _ _ _ hpieces hothers
      rw [← commentOf, lineBreaks_commentOf hkeyword hspec] at hfrom
      by_cases hlast : rest = []
      · subst hlast
        refine ⟨[directive], .cons ⟨hfound, hvalue, hline⟩ .nil, ?_⟩
        simpa [concat] using hfrom
      · -- another comment follows, which begins with no line terminator
        obtain ⟨next, more, rfl⟩ := List.exists_cons_of_ne_nil hlast
        obtain ⟨directives, hdirectives, hbehind⟩ := ih hlast hrest
        refine ⟨directive :: directives, .cons ⟨hfound, hvalue, hline⟩ hdirectives, ?_⟩
        have hbreak : leadingBreak ((next :: more).flatMap (commentOf keyword) ++ following) = [] := rfl
        have hdrop : dropLineBreak ((next :: more).flatMap (commentOf keyword) ++ following) =
          (next :: more).flatMap (commentOf keyword) ++ following := rfl
        have hlines : (lineBreaks [] : Int) = 0 := rfl
        rw [hbreak, hdrop, hlines, Int.add_zero, hbehind] at hfrom
        rw [List.flatMap_cons, List.append_assoc, hfrom, concat]
        simp only [bind_assoc, pure_bind, List.append_assoc]

/-- Imports of some specs do what the specs do. -/
theorem matches_directives (hkeyword : Keyword.IsImport keyword) (file : Path)
    {directive : Directive} {specs : List Text} (hspecs : ∀ spec ∈ specs, Import.IsSpec spec)
    {directives : List Directive}
    (hdirectives : List.Forall₂ (fun spec found => found.keyword = keyword ∧
      found.value = some spec ∧ found.line = directive.line) specs directives)
    {context context' : Context} (hagrees : context'.Agrees context) :
    Matches Eq ((concat (place.expandEntry place.compileFile file directive) specs).run context)
      ((concat (place.expandDirective place.compileFile file) directives).run context') := by
  induction hdirectives generalizing context context' with
  | nil => exact .ok hagrees
  | @cons spec found specs directives hfound _ ih =>
      obtain ⟨hspec, hrest⟩ := List.forall_mem_cons.1 hspecs
      obtain ⟨hname, hvalue, hline⟩ := hfound
      have hsingle : (splitOn ',' spec).map Import.clean = [spec] := by
        rw [splitOn_of_not_mem hspec.single, List.map_singleton, hspec.clean_eq]
      obtain ⟨noted, hnoted, hrun⟩ := place.run_expandDirective_of_isImport hkeyword hname hvalue
        hsingle (List.forall_mem_singleton.2 hspec) hline context'
      have hfirst := place.steady_expandEntry file directive spec _ _ (hnoted.trans hagrees)
      have hown : concat (place.expandEntry place.compileFile file directive) [spec] =
        place.expandEntry place.compileFile file directive spec := by simp [concat]
      rw [hown] at hrun
      rw [← hrun] at hfirst
      rw [concat, concat]
      refine hfirst.bind fun text reached reached' _ hreached => ?_
      exact (ih hrest hreached).bind fun _ _ _ _ => .ok

/-- A list of imports means its specs, imported one by one. Where the list stands on several lines,
what follows it has moved up by them. -/
theorem expandText_import_list (place : Workplace) (file : Path)
    (hkeyword : Keyword.IsImport keyword) {entries : List Import.Entry} (hentries : entries ≠ [])
    (following : Text) (context : Context) :
    let list := commentOf keyword (Import.Entry.list entries)
    let singles := entries.flatMap fun entry => commentOf keyword entry.spec
    let outcome := (place.expandText file (list ++ following)).run context
    let outcome' := (place.expandText file (singles ++ following)).run context
    Matches (place.FollowsLayout Eq file list following context (-lineBreaks list)) outcome
        outcome' ∧
      (lineBreaks list = 0 → Matches Eq outcome outcome') := by
  intro list singles outcome outcome'
  have hname := hkeyword.isName
  have hspecs : ∀ spec ∈ entries.map Import.Entry.spec, Import.IsSpec spec := by
    intro spec hspec
    obtain ⟨entry, -, rfl⟩ := List.mem_map.1 hspec
    exact entry.isSpec
  have hbody := Keyword.ofBody?_commentOf hname rfl (Import.Entry.isTrimmed_strip_list hentries)
    (Import.Entry.not_isGap_strip_list hentries)
  obtain ⟨directives, hdirectives, hfrom⟩ := @exists_directives place _ hkeyword file 1 _
    (by simpa using hentries) hspecs following
  -- the specs stand on one line, so what follows stands as many lines higher as the list has
  have hlines : 1 + (lineBreaks following.leadingBreak : Int) =
      1 + lineBreaks (list ++ following.leadingBreak) + -lineBreaks list := by
    have hclose : lineBreaks (list ++ following.leadingBreak) = _ :=
      lineBreaks_append (Cursor.not_cutsPair_commentClose _ _)
    rw [hclose, Int.natCast_add]
    change _ = 1 + ((lineBreaks list : Int) + _) + -lineBreaks list
    omega
  rw [List.flatMap_map, hlines] at hfrom
  have hmatches : Matches (place.FollowsLayout Eq file list following context (-lineBreaks list))
      outcome outcome' := by
    refine matches_followsLayout
      (not_isInfix_commentOf hname (Import.Entry.unmarked_list entries)) hbody
      (Directive.begins_commentOf hname _) file following context hfrom ?_
    intro directive hfound hvalue hline context context' hagrees
    obtain ⟨noted, hnoted, hrun⟩ := place.run_expandDirective_of_isImport hkeyword hfound hvalue
      (Import.Entry.map_clean_list hentries) hspecs rfl context
    rw [← hline] at hdirectives
    rw [hrun]
    refine (matches_directives hkeyword file hspecs hdirectives (hagrees.trans hnoted.symm)).mono
      fun fault _ fault' _ hsame => ?_
    exact ⟨fun _ => hsame.symm, fun _ => hsame⟩
  refine ⟨hmatches, fun hflat => hmatches.mono fun fault _ fault' _ hlike => ?_⟩
  rw [hflat] at hlike
  exact FollowsLayout.eq hlike

/-- A list of two entries, one of them in quotes and on a line of its own. -/
theorem expandText_import_list_quotes :
    let place : Workplace := ⟨{ postsDirectory := ⟨.root, []⟩ },
      (Workspace.ofFiles [("a.css".toList, "a".toList), ("b.css".toList, "b".toList)]).tree⟩
    let file : Path := ⟨.root, ["p.kit".toList]⟩
    let list := "<!-- @Include a.css,\n \"b.css\" -->".toList
    let singles := "<!-- @Include a.css --><!-- @Include b.css -->".toList
    let following := "<!--$x-->".toList
    Matches (place.FollowsLayout Eq file list following {} (-1))
        ((place.expandText file (list ++ following)).run {})
        ((place.expandText file (singles ++ following)).run {}) ∧
      value? ((place.expandText file list).run {}) = some "ab".toList := by
  intro place file list singles following
  have hkeyword : Keyword.IsImport "@Include".toList := by decide +kernel
  have hspec {name : Text} (hname : name = "a.css".toList ∨ name = "b.css".toList) :
      Import.IsSpec name := by
    rcases hname with rfl | rfl <;> constructor <;> simp [Import.isQuote] <;> decide
  have hpadding : Import.IsPadding "\n \"".toList :=
    ⟨"\n ".toList, some '"', [], by decide, by simp; decide, by simp; decide, by simp⟩
  have hquote : Import.IsPadding "\"".toList :=
    ⟨[], some '"', [], by decide, by simp, by simp; decide, by simp⟩
  let entries : List Import.Entry :=
    [⟨[], "a.css".toList, [], Import.isPadding_nil, hspec (Or.inl rfl), Import.isPadding_nil⟩,
      ⟨"\n \"".toList, "b.css".toList, "\"".toList, hpadding, hspec (Or.inr rfl), hquote⟩]
  have hvalue : value? ((place.expandText file list).run {}) = some "ab".toList := by
    decide +kernel
  have hmeans := expandText_import_list place file hkeyword
    (show entries ≠ [] from List.cons_ne_nil _ _) following {}
  exact ⟨hmeans.1, hvalue⟩

end Workplace

end KitTemplate
