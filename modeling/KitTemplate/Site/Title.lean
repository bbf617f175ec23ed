import KitTemplate.Text.Blank
import KitTemplate.Text.Pattern

/-! Titles of posts. The title is the text of the first heading, its words joined by single spaces;
later headings are not looked at. A post whose first heading is blank, or is not closed, goes by
another name. -/

namespace KitTemplate.Site

/-- A heading, of which the text between its tags is kept. The opening tag ends at the first angle
bracket, whatever stands in it. -/
def headingPattern : Pattern :=
  .word "<h1".toList ++ .most (· ≠ '>') ++ .one (· = '>') ++ .captured (.fewest fun _ => true) ++
    .word "</h1>".toList

/-- What stands between the tags of the first heading. -/
def heading? (text : Text) : Option Text := do
  let found ← headingPattern.search text
  let (first, last) ← found.spans.head?
  return (text.take last).drop first

/-- The title of a post, which is `other` where its text has none. -/
def title (text : Text) (other : Text) : Text :=
  match Text.words Text.isBlank ((heading? text).getD []) with
  | [] => other
  | words => Text.join [' '] words

end KitTemplate.Site
