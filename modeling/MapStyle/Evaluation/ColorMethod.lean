import MapStyle.Color.Adjust
import MapStyle.Evaluation.Argument

/-
  This file defines the methods of colors.

  Key definitions include:
    * `ColorMethod`
    * `ColorMethod.ofName?`
    * `ColorMethod.subject?`
    * `ColorMethod.apply`
-/

namespace MapStyle

/- A method of a color. -/
inductive ColorMethod
  | darken
  | lighten
  | saturate
  | desaturate
  | spin
  | greyscale
  | mix
  | rgbMix
deriving DecidableEq

namespace ColorMethod

/- The method with a name; one of them has two spellings. -/
def ofName? : String → Option ColorMethod
  | "darken" => some .darken
  | "lighten" => some .lighten
  | "saturate" => some .saturate
  | "desaturate" => some .desaturate
  | "spin" => some .spin
  | "greyscale" => some .greyscale
  | "grayscale" => some .greyscale
  | "mix" => some .mix
  | "rgb_mix" => some .rgbMix
  | _ => none

/- The color that a value stands for. -/
def subject? : Value → Option Color
  | .color c => some c
  | .int n => Color.ofInt? n
  | _ => none

/- The other color of a blend. -/
def other
    (args : List Value)
    (name : String) : Except CompileError Color :=
  match args.head? with
  | some (.color c) => .ok c
  | some (.int n) =>
      match Color.ofInt? n with
      | some c => .ok c
      | none => Arguments.fail (.noSuchColor name n)
  | _ => Arguments.fail (.notColor name)

/- The weight of a blend; without one the shares are equal. -/
def weight
    (args : List Value)
    (name : String) : Except CompileError Float :=
  match args[1]? with
  | some v => Arguments.asNumber v name
  | none => .ok 50.0

/- Apply a method, under the name that it was called by. -/
def apply
    (m : ColorMethod)
    (c : Color)
    (args : List Value)
    (name : String) : Except CompileError Color :=
  match m with
  | .darken => return c.darken (← Arguments.number args 0 name)
  | .lighten => return c.lighten (← Arguments.number args 0 name)
  | .saturate =>
      return c.saturate (← Arguments.number args 0 name)
  | .desaturate =>
      return c.desaturate (← Arguments.number args 0 name)
  | .spin => return c.spin (← Arguments.number args 0 name)
  | .greyscale => .ok c.greyscale
  | .mix => do
      let d ← other args name
      let p ← weight args name
      pure (c.mix d p)
  | .rgbMix => do
      let d ← other args name
      let p ← weight args name
      pure (c.rgbMix d p)

end ColorMethod

end MapStyle
