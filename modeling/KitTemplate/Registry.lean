import KitTemplate.Table
import KitTemplate.Text.LowerCase

/-! The registry of directives. It maps keywords to what they mean; a directive may be known under
several keywords, and registering one takes over the keywords it claims, each of which keeps its
place among the others. Only reserved keywords are looked up, in any letter case. Every other
keyword names a variable. -/

namespace KitTemplate

inductive Category where
  | imports
  | partials
  /-- The values of variables, assigned or used. -/
  | values
deriving DecidableEq, Repr

structure DirectiveForm where
  name : Text
  category : Category
  description : Text
  needsValue : Bool := false
  examples : List Text := []
  aliases : List Text := []
deriving DecidableEq, Repr

/-- The keywords under which a directive is registered. -/
def DirectiveForm.keywords (form : DirectiveForm) : List Text := form.name :: form.aliases

structure Registry where
  /-- The directives in the order of their registration. -/
  forms : List DirectiveForm := []
  /-- Each keyword with the place of its directive among `forms`, in the order of the first
  registration of the keyword. -/
  keywords : List (Text × Nat) := []

namespace Registry

def reserved : List Text := ["@import".toList, "@include".toList, "@import-partial".toList]

def isReserved (keyword : Text) : Bool := reserved.contains keyword.lowerCase

/-- What a keyword means that is not reserved. -/
def variableForm : DirectiveForm where
  name := "$*".toList
  category := .values
  description := "Assign a variable (with a value) or substitute it (without)".toList
  examples := ["<!--$title Home-->".toList, "<!--$title-->".toList]

def register (registry : Registry) (form : DirectiveForm) : Registry where
  forms := registry.forms ++ [form]
  keywords := Table.putAll registry.keywords (form.keywords.map (·, registry.forms.length))

def lookup (registry : Registry) (keyword : Text) : Option DirectiveForm := do
  registry.forms[← registry.keywords.lookup keyword]?

/-- What a keyword means. -/
def find (registry : Registry) (keyword : Text) : DirectiveForm :=
  if isReserved keyword then (registry.lookup keyword.lowerCase).getD variableForm
  else variableForm

/-- The directives that some keyword leads to, in the order of the first such keyword, and at the
end the one for variables. -/
def reachable (registry : Registry) : List DirectiveForm :=
  (registry.keywords.map (·.2)).eraseDups.filterMap (registry.forms[·]?) ++ [variableForm]

def inCategory (registry : Registry) (category : Category) : List DirectiveForm :=
  registry.reachable.filter (·.category = category)

def importForm : DirectiveForm where
  name := "@import".toList
  category := .imports
  description := "Expand template files, or include other files verbatim, in order".toList
  needsValue := true
  examples :=
    ["<!-- @import header -->".toList, "<!-- @import \"_nav.kit\", footer.html -->".toList]
  aliases := ["@include".toList]

def partialForm : DirectiveForm where
  name := "@import-partial".toList
  category := .partials
  description := "Include the raw contents of the posts file named by a variable".toList
  needsValue := true
  examples := ["<!-- @import-partial $postFile -->".toList]

/-- The registry of the directives that templates are written with. -/
def standard : Registry := (({} : Registry).register importForm).register partialForm

end Registry

end KitTemplate
