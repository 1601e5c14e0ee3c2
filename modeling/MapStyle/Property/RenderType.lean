/-
  This file defines the ways in which a layer can be drawn
  and their deduction from the names of properties.

  Key definitions include:
    * `RenderType`
    * `RenderType.name`
    * `RenderType.ofProperty?`
-/

namespace MapStyle

/- The way in which a layer is drawn. -/
inductive RenderType
  | background
  | fill
  | line
  | symbol
  | circle
  | heatmap
  | fillExtrusion
  | raster
  | hillshade
  | colorRelief
deriving DecidableEq

namespace RenderType

/- The name of a render type in documents. -/
def name : RenderType → String
  | .background => "background"
  | .fill => "fill"
  | .line => "line"
  | .symbol => "symbol"
  | .circle => "circle"
  | .heatmap => "heatmap"
  | .fillExtrusion => "fill-extrusion"
  | .raster => "raster"
  | .hillshade => "hillshade"
  | .colorRelief => "color-relief"

/- The render type that the first word of a name implies. -/
def ofWord? : String → Option RenderType
  | "background" => some .background
  | "fill" => some .fill
  | "line" => some .line
  | "symbol" => some .symbol
  | "icon" => some .symbol
  | "text" => some .symbol
  | "circle" => some .circle
  | "heatmap" => some .heatmap
  | "raster" => some .raster
  | "hillshade" => some .hillshade
  | _ => none

/-
  The render type that a name with hyphens implies. A name of
  one word implies none; two types have names of two words,
  which go before the first word alone.
-/
def ofProperty? (property : String) : Option RenderType :=
  let chars := property.toList
  if '-' ∉ chars then
    none
  else if "fill-extrusion".toList.isPrefixOf chars then
    some .fillExtrusion
  else if "color-relief".toList.isPrefixOf chars then
    some .colorRelief
  else
    ofWord? (String.ofList (chars.takeWhile (· ≠ '-')))

end RenderType

end MapStyle
