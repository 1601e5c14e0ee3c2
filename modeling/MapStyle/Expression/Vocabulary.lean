/-
  This file lists the named functions of the expression
  language and the operators that their names stand for.

  Key definitions include:
    * `Vocabulary.operators`
    * `Vocabulary.functions`
    * `Vocabulary.methods`
    * `Vocabulary.operator`
-/

namespace MapStyle

namespace Vocabulary

------------------------------------------------------------
-- Tables
------------------------------------------------------------

/- The operators that names of their own stand for. -/
def operators : List (String × String) :=
  [("string_format", "format"),
   ("is_in", "in"),
   ("case_when", "case"),
   ("not", "!"),
   ("feature_id", "id"),
   ("subtract", "-"),
   ("divide", "/"),
   ("power", "^"),
   ("pow", "^"),
   ("eq", "=="),
   ("ne", "!="),
   ("lt", "<"),
   ("gt", ">"),
   ("le", "<="),
   ("ge", ">="),
   ("add", "+"),
   ("sub", "-"),
   ("mul", "*"),
   ("div", "/"),
   ("modulo", "%")]

/- The names that can be called as functions. -/
def functions : List String :=
  ["literal", "array", "typeof", "string", "number", "boolean",
   "object", "collator", "string_format", "image",
   "number_format", "to_string", "to_number", "to_boolean",
   "to_color",
   "let", "var",
   "at", "is_in", "index_of", "slice", "global_state", "get",
   "has", "length",
   "case_when", "match", "coalesce", "all", "any", "not",
   "within",
   "step", "interpolate", "interpolate_hcl", "interpolate_lab",
   "ln2", "pi", "e", "subtract", "divide", "pow", "sqrt",
   "log10", "ln", "log2", "sin", "cos", "tan", "asin", "acos",
   "atan", "min", "max", "round", "abs", "ceil", "floor",
   "distance",
   "to_rgba", "rgb", "rgba",
   "properties", "feature_state", "geometry_type",
   "feature_id", "line_progress", "accumulated",
   "zoom", "heatmap_density", "elevation",
   "distance_from_center", "pitch",
   "is_supported_script", "upcase", "downcase", "concat",
   "resolved_locale"]

/- The names that can follow an expression after a dot. -/
def methods : List String :=
  ["array", "boolean", "string_format", "image", "number",
   "number_format", "object", "string", "to_boolean",
   "to_color", "to_number", "to_string", "typeof", "length",
   "slice", "match", "downcase", "upcase",
   "is_supported_script", "to_rgba", "abs", "acos", "asin",
   "atan", "ceil", "cos", "floor", "ln", "log10", "log2",
   "round", "sin", "sqrt", "tan"]

------------------------------------------------------------
-- Look-up
------------------------------------------------------------

/- Whether a name can be called as a function. -/
def isFunction (name : String) : Bool :=
  functions.contains name

/- Whether a name can follow an expression after a dot. -/
def isMethod (name : String) : Bool :=
  methods.contains name

end Vocabulary

end MapStyle
