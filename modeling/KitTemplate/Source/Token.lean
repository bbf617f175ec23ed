import KitTemplate.Text.Basic

/-! Tokens of a template source. A source is cut after every blank, after every line terminator and
between `>` and `<`, so a comment opens and closes within one token each, and a token holds at most
one line terminator, at its end. The tokens one after another are the source. -/

namespace KitTemplate

abbrev Token := Text

namespace Token

/-- Whether a source is cut between `c` and the character after it. -/
def endsAfter (c : Char) (next : Option Char) : Bool :=
  c = ' ' || c = '\t' || c = '\n' || (c = '\r' && next != some '\n') ||
    (c = '>' && next == some '<')

/-- The tokens of a source, when `reading` has been read since the last cut, its last character
first. Behind the last character of the source there is always a cut. -/
def splitFrom (reading : Text) : Text → List Token
  | [] => []
  | c :: rest =>
    if endsAfter c rest.head? || rest.isEmpty then
      (c :: reading).reverse :: splitFrom [] rest
    else
      splitFrom (c :: reading) rest

def split (source : Text) : List Token := splitFrom [] source

/-- What has been read since the last cut belongs to the next token, and where the cuts are does
not depend on it. -/
theorem exists_splitFrom (c : Char) (rest : Text) : ∃ token tokens, ∀ reading,
    splitFrom reading (c :: rest) = (reading.reverse ++ token) :: tokens := by
  induction rest generalizing c with
  | nil => exact ⟨[c], [], fun reading => by simp [splitFrom]⟩
  | cons next rest ih =>
    by_cases hends : endsAfter c (some next)
    · exact ⟨[c], splitFrom [] (next :: rest), fun reading => by simp [splitFrom, hends]⟩
    · obtain ⟨token, tokens, hsplit⟩ := ih next
      refine ⟨c :: token, tokens, fun reading => ?_⟩
      have hjoins : splitFrom reading (c :: next :: rest) =
          splitFrom (c :: reading) (next :: rest) := by
        rw [splitFrom, if_neg (by simpa using hends)]
      simp [hjoins, hsplit]

theorem split_cons (c : Char) (rest : Text) : split (c :: rest) =
    if endsAfter c rest.head? then
      [c] :: split rest
    else
      match split rest with
      | [] => [[c]]
      | token :: tokens => (c :: token) :: tokens := by
  cases rest with
  | nil =>
    rw [split, splitFrom, if_pos (by simp)]
    split <;> rfl
  | cons next rest =>
    obtain ⟨token, tokens, hsplit⟩ := exists_splitFrom next rest
    rw [split, splitFrom]
    by_cases hends : endsAfter c (some next)
    · simp [hends, split]
    · simp [hends, split, hsplit]

theorem flatten_split (source : Text) : (split source).flatten = source := by
  induction source with
  | nil => rfl
  | cons c rest ih =>
    rw [split_cons]
    split
    · simpa using ih
    · split
      · rename_i hnil
        rw [hnil] at ih
        simpa using ih
      · rename_i token tokens hcons
        rw [hcons] at ih
        simpa using ih

end Token

end KitTemplate
