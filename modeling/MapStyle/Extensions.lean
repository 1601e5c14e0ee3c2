import MapStyle.Stylesheet
import MapStyle.Text.Quoted

/-
  This file defines how the extensions of a stylesheet are
  listed.

  Key definitions include:
    * `Stylesheet.extensionNames`
    * `Stylesheet.extensionsText`
-/

namespace MapStyle

namespace Stylesheet

/- The names of the extensions in the order of their codes. -/
def extensionNames (sheet : Stylesheet) : List String :=
  sheet.extensions.keys.mergeSort fun a b => !(b < a : Bool)

/- The list of the extensions as a text. -/
def extensionsText (sheet : Stylesheet) : String :=
  let names :=
    sheet.extensionNames.map fun name =>
      String.ofList (Text.quoted name.toList)
  "ExtensionRegistry \x7b names: ["
    ++ ", ".intercalate names ++ "] \x7d"

end Stylesheet

end MapStyle
