import KitTemplate.Source.Directive

/-! Pieces of a template source: the text that is copied and the directives that are expanded, in
their order. Which pieces a source has depends on its text alone. A cursor holds the tokens still to
be read and the line on which they begin; every step shrinks what is left (`size_lt_of_step?`), also
when a directive closes inside a token whose tail opens another comment. -/

namespace KitTemplate

inductive Piece where
  | literal (text : Text)
  | directive (directive : Directive)
  /-- A directive that cannot be read, with the line on which it opens. Nothing follows it. -/
  | broken (problem : Directive.ReadError) (line : Int)
deriving DecidableEq, Repr

structure Cursor where
  tokens : List Token
  line : Int

namespace Cursor

/-- The amount of text still to be read, each token counting one more. -/
def size (cursor : Cursor) : Nat :=
  cursor.tokens.foldr (fun token size => token.length + 1 + size) 0

/-- The pieces up to the next place where reading resumes, or nothing at the end. -/
def step? (cursor : Cursor) : Option (List Piece × Cursor) :=
  match cursor.tokens with
  | [] => none
  | token :: following =>
    match Text.cut? commentOpen token with
    | none => some ([.literal token], ⟨following, cursor.line + Text.lineBreaks token⟩)
    | some (before, after) =>
      let opening := commentOpen ++ after
      if Directive.opensAt opening following then
        match Directive.read opening following cursor.line with
        | .error problem => some ([.literal before, .broken problem cursor.line], ⟨[], cursor.line⟩)
        | .ok (directive, remaining) =>
          if Text.occursIn commentOpen directive.suffix then
            some ([.literal before, .directive directive],
              ⟨directive.suffix :: remaining, cursor.line + Text.lineBreaks directive.comment⟩)
          else
            some ([.literal before, .directive directive, .literal directive.suffix],
              ⟨remaining, cursor.line + Text.lineBreaks directive.source⟩)
      else
        some ([.literal token], ⟨following, cursor.line + Text.lineBreaks opening⟩)

/-- What a step does with a token and those that follow it. -/
inductive StepsTo (token : Token) (following : List Token) (line : Int) :
    List Piece → Cursor → Prop
  | copied (hcut : Text.cut? commentOpen token = none) :
      StepsTo token following line [.literal token] ⟨following, line + Text.lineBreaks token⟩
  /-- A comment that is no directive is copied with its token. -/
  | ordinary {before after : Text} (hcut : Text.cut? commentOpen token = some (before, after))
      (hopens : ¬ Directive.opensAt (commentOpen ++ after) following) :
      StepsTo token following line [.literal token]
        ⟨following, line + Text.lineBreaks (commentOpen ++ after)⟩
  | broken {before after : Text} {problem : Directive.ReadError}
      (hcut : Text.cut? commentOpen token = some (before, after))
      (hopens : Directive.opensAt (commentOpen ++ after) following)
      (hread : Directive.read (commentOpen ++ after) following line = .error problem) :
      StepsTo token following line [.literal before, .broken problem line] ⟨[], line⟩
  /-- The token that closes a directive opens another comment. -/
  | within {before after : Text} {directive : Directive} {remaining : List Token}
      (hcut : Text.cut? commentOpen token = some (before, after))
      (hopens : Directive.opensAt (commentOpen ++ after) following)
      (hread : Directive.read (commentOpen ++ after) following line = .ok (directive, remaining))
      (hoccurs : Text.occursIn commentOpen directive.suffix) :
      StepsTo token following line [.literal before, .directive directive]
        ⟨directive.suffix :: remaining, line + Text.lineBreaks directive.comment⟩
  | behind {before after : Text} {directive : Directive} {remaining : List Token}
      (hcut : Text.cut? commentOpen token = some (before, after))
      (hopens : Directive.opensAt (commentOpen ++ after) following)
      (hread : Directive.read (commentOpen ++ after) following line = .ok (directive, remaining))
      (hoccurs : ¬ Text.occursIn commentOpen directive.suffix) :
      StepsTo token following line
        [.literal before, .directive directive, .literal directive.suffix]
        ⟨remaining, line + Text.lineBreaks directive.source⟩

theorem stepsTo_of_step? {token : Token} {following : List Token} {line : Int}
    {pieces : List Piece} {next : Cursor}
    (hstep : step? ⟨token :: following, line⟩ = some (pieces, next)) :
    StepsTo token following line pieces next := by
  simp only [step?] at hstep
  split at hstep
  · rename_i hcut
    obtain ⟨rfl, rfl⟩ := Prod.mk.inj (Option.some.inj hstep)
    exact .copied hcut
  rename_i before after hcut
  split at hstep
  · rename_i hopens
    split at hstep
    · rename_i hread
      obtain ⟨rfl, rfl⟩ := Prod.mk.inj (Option.some.inj hstep)
      exact .broken hcut hopens hread
    rename_i hread
    split at hstep
    · rename_i hoccurs
      obtain ⟨rfl, rfl⟩ := Prod.mk.inj (Option.some.inj hstep)
      exact .within hcut hopens hread hoccurs
    · rename_i hoccurs
      obtain ⟨rfl, rfl⟩ := Prod.mk.inj (Option.some.inj hstep)
      exact .behind hcut hopens hread hoccurs
  · rename_i hopens
    obtain ⟨rfl, rfl⟩ := Prod.mk.inj (Option.some.inj hstep)
    exact .ordinary hcut hopens

theorem size_remaining_of_close? {searched following : List Token} {current : Token} {count : Nat}
    {closed : Directive.Closed}
    (hclose : Directive.close? searched current count following = some closed) :
    closed.trailing.length + size ⟨closed.remaining, 0⟩ <
      current.length + size ⟨following, 0⟩ := by
  fun_induction Directive.close? searched current count following with
  | case1 following searched current count before trailing hcut =>
    obtain rfl := Option.some.inj hclose
    have hlt : trailing.length < current.length := Text.length_after_lt (by decide) hcut
    simpa using hlt
  | case2 => cases hclose
  | case3 searched current count next following hcut ih =>
    have hrest := ih hclose
    simp only [size, List.foldr_cons] at hrest ⊢
    omega

theorem size_remaining_of_read {opening : Token} {following remaining : List Token} {line : Int}
    {directive : Directive}
    (hread : Directive.read opening following line = .ok (directive, remaining)) :
    directive.trailing.length + size ⟨remaining, 0⟩ < opening.length + size ⟨following, 0⟩ := by
  simp only [Directive.read] at hread
  split at hread
  · cases hread
  · rename_i closed hclose
    split at hread
    · cases hread
    · obtain ⟨rfl, rfl⟩ := Prod.mk.inj (Except.ok.inj hread)
      have hlt := size_remaining_of_close? hclose
      have hdrop : (opening.drop commentOpen.length).length ≤ opening.length := by simp
      dsimp only
      omega

theorem size_lt_of_step? {cursor next : Cursor} {pieces : List Piece}
    (hstep : cursor.step? = some (pieces, next)) : next.size < cursor.size := by
  obtain ⟨tokens, line⟩ := cursor
  cases tokens with
  | nil => cases hstep
  | cons token following =>
    have hopening {before after : Text}
        (hcut : Text.cut? commentOpen token = some (before, after)) :
        (commentOpen ++ after).length ≤ token.length := by
      rw [Text.eq_of_cut? hcut]
      simp
    cases stepsTo_of_step? hstep with
    | copied | ordinary | broken =>
      simp only [size, List.foldr_cons, List.foldr_nil]
      omega
    | @within _ _ directive _ hcut _ hread | @behind _ _ directive _ hcut _ hread =>
      have hlt := size_remaining_of_read hread
      have hsuffix := directive.length_suffix_le
      have hle := hopening hcut
      simp only [size, List.foldr_cons] at hlt ⊢
      omega

/-- The pieces of everything still to be read. -/
def pieces (cursor : Cursor) : List Piece :=
  match _hstep : cursor.step? with
  | none => []
  | some (found, next) => found ++ next.pieces
termination_by cursor.size
decreasing_by exact size_lt_of_step? _hstep

theorem pieces_of_step?_eq_none {cursor : Cursor} (hstep : cursor.step? = none) :
    cursor.pieces = [] := by
  rw [pieces]
  split <;> simp_all

theorem pieces_of_step?_eq_some {cursor next : Cursor} {found : List Piece}
    (hstep : cursor.step? = some (found, next)) : cursor.pieces = found ++ next.pieces := by
  rw [pieces]
  split <;> simp_all

end Cursor

/-- The pieces of a source. -/
def Piece.ofSource (source : Text) : List Piece := Cursor.pieces ⟨Token.split source, 1⟩

end KitTemplate
