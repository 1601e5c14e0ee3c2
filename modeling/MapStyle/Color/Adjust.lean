import MapStyle.Color.Space

/-
  This file defines the adjustments of colors. All but the
  blend of channels work on perceptual coordinates.

  Key definitions include:
    * `Color.darken`
    * `Color.saturate`
    * `Color.spin`
    * `Color.mix`
    * `Color.rgbMix`
-/

namespace MapStyle

namespace Color

------------------------------------------------------------
-- One color
------------------------------------------------------------

/- Apply a change of perceptual coordinates. -/
def adjust
    (c : Color)
    (change : Hsluv → Hsluv) : Color :=
  ofRgb (change c.toHsluv).toRgb

/- Take lightness off, down to black. -/
def darken (c : Color) (amount : Float) : Color :=
  c.adjust fun p =>
    { p with lightness := larger (p.lightness - amount) 0.0 }

/- Add lightness, up to white. -/
def lighten (c : Color) (amount : Float) : Color :=
  c.adjust fun p =>
    { p with lightness := smaller (p.lightness + amount) 100.0 }

/- Add saturation, up to the full one. -/
def saturate (c : Color) (amount : Float) : Color :=
  c.adjust fun p =>
    { p with saturation := smaller (p.saturation + amount) 100.0 }

/- Take saturation off, down to grey. -/
def desaturate (c : Color) (amount : Float) : Color :=
  c.adjust fun p =>
    { p with saturation := larger (p.saturation - amount) 0.0 }

/- Turn the hue. -/
def spin (c : Color) (degrees : Float) : Color :=
  c.adjust fun p => { p with hue := turn (p.hue + degrees) }

/- The grey of the same lightness. -/
def greyscale (c : Color) : Color :=
  c.adjust fun p => { p with saturation := 0.0 }

------------------------------------------------------------
-- Two colors
------------------------------------------------------------

/- A weighted mean; `p` is the share of the first. -/
def blend (p a b : Float) : Float :=
  a * p + b * (1.0 - p)

/- The way from one hue to another, the short way round. -/
def hueGap (start finish : Float) : Float :=
  let gap := finish - start
  let gap := if gap > 180.0 then gap - 360.0 else gap
  if gap < -180.0 then gap + 360.0 else gap

/-
  Blend perceptual coordinates; the weight is the percentage
  of the first color.
-/
def mix (a b : Color) (weight : Float) : Color :=
  let p := weight / 100.0
  let x := a.toHsluv
  let y := b.toHsluv
  let hue := turn (x.hue + hueGap x.hue y.hue * (1.0 - p))
  ofRgb (Hsluv.toRgb
    ⟨hue, blend p x.saturation y.saturation,
      blend p x.lightness y.lightness⟩)

/- Blend channels; the weight is the percentage of the first. -/
def rgbMix (a b : Color) (weight : Float) : Color :=
  let p := weight / 100.0
  let channel (x y : UInt8) : UInt8 :=
    (blend p x.toFloat y.toFloat).round.toUInt8
  ⟨channel a.red b.red, channel a.green b.green,
    channel a.blue b.blue⟩

end Color

end MapStyle
