import MapStyle.Spelling

/-
  This file lists the known properties of layers and the
  place of each in a written layer.

  Key definitions include:
    * `PropertyClass`
    * `Property.layout`
    * `Property.paint`
    * `Property.topLevel`
    * `Property.hidden`
    * `Property.classify?`
-/

namespace MapStyle

------------------------------------------------------------
-- Classes
------------------------------------------------------------

/- The place of a property in a written layer. -/
inductive PropertyClass
  | layout
  | paint
  | topLevel
  | hidden
deriving DecidableEq

namespace PropertyClass

/- Hidden properties cannot be assigned by their name alone. -/
def isSettable : PropertyClass → Bool
  | .hidden => false
  | _ => true

/- Layout and paint properties tell how a layer is drawn. -/
def impliesType : PropertyClass → Bool
  | .layout => true
  | .paint => true
  | _ => false

end PropertyClass

------------------------------------------------------------
-- Tables
------------------------------------------------------------

namespace Property

/- Properties of placement and shape. -/
def layout : List String :=
  ["visibility", "fill_sort_key", "circle_sort_key",
   "line_cap", "line_join", "line_miter_limit",
   "line_round_limit", "line_sort_key", "symbol_placement",
   "symbol_spacing", "symbol_avoid_edges",
   "symbol_sort_key", "symbol_z_order",
   "icon_allow_overlap", "icon_overlap",
   "icon_ignore_placement", "icon_optional",
   "icon_rotation_alignment", "icon_size", "icon_text_fit",
   "icon_text_fit_padding", "icon_image", "icon_rotate",
   "icon_padding", "icon_keep_upright", "icon_offset",
   "icon_anchor", "icon_pitch_alignment",
   "text_pitch_alignment", "text_rotation_alignment",
   "text_field", "text_font", "text_size",
   "text_max_width", "text_line_height",
   "text_letter_spacing", "text_justify",
   "text_radial_offset", "text_variable_anchor",
   "text_variable_anchor_offset", "text_anchor",
   "text_max_angle", "text_writing_mode", "text_rotate",
   "text_padding", "text_keep_upright", "text_transform",
   "text_offset", "text_allow_overlap", "text_overlap",
   "text_ignore_placement", "text_optional"]

/- Properties of appearance. -/
def paint : List String :=
  ["background_color", "background_pattern",
   "background_opacity", "fill_antialias", "fill_opacity",
   "fill_color", "fill_outline_color", "fill_translate",
   "fill_translate_anchor", "fill_pattern",
   "circle_radius", "circle_color", "circle_blur",
   "circle_opacity", "circle_translate",
   "circle_translate_anchor", "circle_pitch_scale",
   "circle_pitch_alignment", "circle_stroke_width",
   "circle_stroke_color", "circle_stroke_opacity",
   "heatmap_radius", "heatmap_weight", "heatmap_intensity",
   "heatmap_color", "heatmap_opacity",
   "fill_extrusion_opacity", "fill_extrusion_color",
   "fill_extrusion_translate",
   "fill_extrusion_translate_anchor",
   "fill_extrusion_pattern", "fill_extrusion_height",
   "fill_extrusion_base",
   "fill_extrusion_vertical_gradient", "line_opacity",
   "line_color", "line_translate", "line_translate_anchor",
   "line_width", "line_gap_width", "line_offset",
   "line_blur", "line_dasharray", "line_pattern",
   "line_gradient", "icon_opacity", "icon_color",
   "icon_halo_color", "icon_halo_width", "icon_halo_blur",
   "icon_translate", "icon_translate_anchor",
   "text_opacity", "text_color", "text_halo_color",
   "text_halo_width", "text_halo_blur", "text_translate",
   "text_translate_anchor", "raster_opacity",
   "raster_hue_rotate", "raster_brightness_min",
   "raster_brightness_max", "raster_saturation",
   "raster_contrast", "raster_resampling",
   "raster_fade_duration",
   "hillshade_illumination_direction",
   "hillshade_illumination_altitude",
   "hillshade_illumination_anchor",
   "hillshade_exaggeration", "hillshade_shadow_color",
   "hillshade_highlight_color", "hillshade_accent_color",
   "hillshade_method", "color_relief_opacity",
   "color_relief_color"]

/- Properties of the layer object itself. -/
def topLevel : List String :=
  ["metadata", "zoom", "interactive"]

/- Fields that are kept beside the properties. -/
def hidden : List String :=
  ["source", "source_layer", "id", "type", "filter",
   "layout", "paint"]

------------------------------------------------------------
-- Classification
------------------------------------------------------------

/- The class of a name in either spelling, if it is known. -/
def classify? (name : String) : Option PropertyClass :=
  let key := Spelling.underscored name
  if layout.contains key then
    some .layout
  else if paint.contains key then
    some .paint
  else if topLevel.contains key then
    some .topLevel
  else if hidden.contains key then
    some .hidden
  else
    none

end Property

end MapStyle
