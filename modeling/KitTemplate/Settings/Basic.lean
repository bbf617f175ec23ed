import KitTemplate.Path.Basic
import KitTemplate.Text.LowerCase

/-! Settings of a compiler and of a site: the extension that tells templates from other files, the
character set, and where fallbacks, posts, templates and pages are. -/

namespace KitTemplate

structure Settings where
  templateExtension : Text := ".kit".toList
  encoding : Text := "utf-8".toList
  searchFolders : List Text := []
  postsDirectory : Text := "posts".toList
  debug : Bool := false
  templatesDirectory : Text := "templates".toList
  buildDirectory : Text := "build".toList
  outputExtension : Text := ".html".toList
deriving DecidableEq, Repr

namespace Settings

/-- Whether a path names a template: its suffix is the template extension, in any letter case. -/
def isTemplate (settings : Settings) (path : Path) : Bool :=
  path.suffix.lowerCase = settings.templateExtension.lowerCase

/-- The path with the template extension, unless its name has a suffix already. -/
def applyExtension (settings : Settings) (path : Path) : Except Path.RenameError Path :=
  if path.suffix ≠ [] then .ok path
  else path.withName (path.name ++ settings.templateExtension)

end Settings

end KitTemplate
