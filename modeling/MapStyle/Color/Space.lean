import MapStyle.Color
import MapStyle.Decimal.Binary

/-
  This file defines color spaces and the conversions between
  them. Hues are degrees. Channels of `Rgb` run from zero to
  one, saturation and lightness of `Hsl` as well, and those of
  `Hsluv` from zero to a hundred. The perceptual space goes
  through linear light, the chroma plane and its polar form.

  Key definitions include:
    * `Rgb`
    * `Hsl`
    * `Hsluv`
    * `Hsl.toRgb`
    * `Rgb.toHsl`
    * `Hsluv.toRgb`
    * `Rgb.toHsluv`
    * `Color.ofRgb`
    * `Color.toRgb`
-/

namespace MapStyle

------------------------------------------------------------
-- Spaces
------------------------------------------------------------

/- Red, green and blue. -/
structure Rgb where
  red : Float
  green : Float
  blue : Float

/- Hue, saturation and lightness. -/
structure Hsl where
  hue : Float
  saturation : Float
  lightness : Float

/- Hue, saturation and lightness as they are perceived. -/
structure Hsluv where
  hue : Float
  saturation : Float
  lightness : Float

/- Tristimulus values of linear light. -/
structure Xyz where
  x : Float
  y : Float
  z : Float

/- Lightness and a point in the chroma plane. -/
structure Luv where
  lightness : Float
  u : Float
  v : Float

/- Lightness and a point in the chroma plane, polar. -/
structure Lch where
  lightness : Float
  chroma : Float
  hue : Float

------------------------------------------------------------
-- Numbers
------------------------------------------------------------

namespace Color

/- The larger of two floats; NaN gives way to the other. -/
def larger (a b : Float) : Float :=
  if a.isNaN then b
  else if b.isNaN then a
  else if a < b then b
  else a

/- The smaller of two floats; NaN gives way to the other. -/
def smaller (a b : Float) : Float :=
  if a.isNaN then b
  else if b.isNaN then a
  else if b < a then b
  else a

/- A float cut to an interval; NaN stays. -/
def clamp (low high x : Float) : Float :=
  if x < low then low
  else if x > high then high
  else x

/- A hue brought into one turn. -/
def turn (hue : Float) : Float :=
  Binary.remainderNonneg hue 360.0

/- Half a turn in radians. -/
def halfTurn : Float := 3.141592653589793

/- Degrees as radians. -/
def toRadians (degrees : Float) : Float :=
  degrees * (halfTurn / 180.0)

/- Radians as degrees. -/
def toDegrees (radians : Float) : Float :=
  radians * 57.29577951308232

/- The third power. -/
def cube (x : Float) : Float :=
  x * x * x

/- The largest finite float. -/
def largestFloat : Float := 1.7976931348623157e308

end Color

------------------------------------------------------------
-- Hue, saturation and lightness
------------------------------------------------------------

/- The color of a sextant of the hue circle, moved to a lightness. -/
def Hsl.toRgb (c : Hsl) : Rgb :=
  let l := c.lightness
  let chroma := (1.0 - (2.0 * l - 1.0).abs) * c.saturation
  let sextant := Color.turn c.hue / 60.0
  let second :=
    chroma * (1.0 - (Binary.remainder sextant 2.0 - 1.0).abs)
  let (r, g, b) :=
    if sextant < 1.0 then (chroma, second, 0.0)
    else if sextant < 2.0 then (second, chroma, 0.0)
    else if sextant < 3.0 then (0.0, chroma, second)
    else if sextant < 4.0 then (0.0, second, chroma)
    else if sextant < 5.0 then (second, 0.0, chroma)
    else (chroma, 0.0, second)
  let m := l - chroma / 2.0
  ⟨r + m, g + m, b + m⟩

/- A grey has hue and saturation zero. -/
def Rgb.toHsl (c : Rgb) : Hsl :=
  let high := Color.larger (Color.larger c.red c.green) c.blue
  let low := Color.smaller (Color.smaller c.red c.green) c.blue
  let l := (high + low) / 2.0
  let d := high - low
  if d == 0.0 then
    ⟨0.0, 0.0, l⟩
  else
    let s := d / (1.0 - (2.0 * l - 1.0).abs)
    let h :=
      if high == c.red then
        60.0 * Binary.remainderNonneg ((c.green - c.blue) / d) 6.0
      else if high == c.green then
        60.0 * ((c.blue - c.red) / d + 2.0)
      else
        60.0 * ((c.red - c.green) / d + 4.0)
    ⟨h, s, l⟩

------------------------------------------------------------
-- Constants of the perceptual space
------------------------------------------------------------

namespace Luv

/- Three coefficients of a linear form. -/
structure Row where
  first : Float
  second : Float
  third : Float

/- The value of a linear form. -/
def Row.apply (r : Row) (a b c : Float) : Float :=
  r.first * a + r.second * b + r.third * c

/- The red channel by tristimulus values. -/
def redRow : Row :=
  ⟨3.240969941904521, -1.537383177570093, -0.498610760293⟩

/- The green channel by tristimulus values. -/
def greenRow : Row :=
  ⟨-0.96924363628087, 1.87596750150772, 0.041555057407175⟩

/- The blue channel by tristimulus values. -/
def blueRow : Row :=
  ⟨0.055630079696993, -0.20397695888897, 1.056971514242878⟩

/- The first tristimulus value by channels. -/
def xRow : Row :=
  ⟨0.41239079926595, 0.35758433938387, 0.18048078840183⟩

/- The second tristimulus value by channels. -/
def yRow : Row :=
  ⟨0.21263900587151, 0.71516867876775, 0.072192315360733⟩

/- The third tristimulus value by channels. -/
def zRow : Row :=
  ⟨0.019330818715591, 0.11919477979462, 0.95053215224966⟩

/- The white point in the chroma plane. -/
def whiteU : Float := 0.19783000664283

/- The white point in the chroma plane. -/
def whiteV : Float := 0.46831999493879

/- The slope of lightness near black. -/
def kappa : Float := 903.2962962

/- The end of the linear part of lightness. -/
def epsilon : Float := 0.0088564516

end Luv

------------------------------------------------------------
-- Light
------------------------------------------------------------

/- A channel from linear light. -/
def Rgb.channelOfLinear (c : Float) : Float :=
  if c ≤ 0.0031308 then
    12.92 * c
  else
    1.055 * c.pow (1.0 / 2.4) - 0.055

/- A channel as linear light. -/
def Rgb.channelToLinear (c : Float) : Float :=
  if c > 0.04045 then
    ((c + 0.055) / 1.055).pow 2.4
  else
    c / 12.92

/- Channels from tristimulus values. -/
def Xyz.toRgb (c : Xyz) : Rgb where
  red := Rgb.channelOfLinear (Luv.redRow.apply c.x c.y c.z)
  green := Rgb.channelOfLinear (Luv.greenRow.apply c.x c.y c.z)
  blue := Rgb.channelOfLinear (Luv.blueRow.apply c.x c.y c.z)

/- Tristimulus values from channels. -/
def Rgb.toXyz (c : Rgb) : Xyz :=
  let r := Rgb.channelToLinear c.red
  let g := Rgb.channelToLinear c.green
  let b := Rgb.channelToLinear c.blue
  ⟨Luv.xRow.apply r g b, Luv.yRow.apply r g b,
    Luv.zRow.apply r g b⟩

/- Lightness by the second tristimulus value. -/
def Luv.lightnessOfY (y : Float) : Float :=
  if y ≤ Luv.epsilon then
    y * Luv.kappa
  else
    116.0 * y.cbrt - 16.0

/- The second tristimulus value by lightness. -/
def Luv.yOfLightness (l : Float) : Float :=
  if l ≤ 8.0 then
    l / Luv.kappa
  else
    Color.cube ((l + 16.0) / 116.0)

/- The chroma plane from tristimulus values; black is its origin. -/
def Xyz.toLuv (c : Xyz) : Luv :=
  let divider := c.x + 15.0 * c.y + 3.0 * c.z
  let l := Luv.lightnessOfY c.y
  if l == 0.0 || divider == 0.0 then
    ⟨0.0, 0.0, 0.0⟩
  else
    let u := 4.0 * c.x / divider
    let v := 9.0 * c.y / divider
    ⟨l, 13.0 * l * (u - Luv.whiteU), 13.0 * l * (v - Luv.whiteV)⟩

/- Tristimulus values from the chroma plane. -/
def Luv.toXyz (c : Luv) : Xyz :=
  let l := c.lightness
  if l == 0.0 then
    ⟨0.0, 0.0, 0.0⟩
  else
    let u := c.u / (13.0 * l) + Luv.whiteU
    let v := c.v / (13.0 * l) + Luv.whiteV
    let y := Luv.yOfLightness l
    let x := -(9.0 * y * u) / ((u - 4.0) * v - u * v)
    let z := (9.0 * y - 15.0 * v * y - v * x) / (3.0 * v)
    ⟨x, y, z⟩

------------------------------------------------------------
-- Polar form
------------------------------------------------------------

/- A point too near to the centre has hue zero. -/
def Luv.toLch (c : Luv) : Lch :=
  let chroma := (c.u * c.u + c.v * c.v).sqrt
  let hue :=
    if chroma < 1e-8 then
      0.0
    else
      Color.turn (Color.toDegrees (c.v.atan2 c.u))
  ⟨c.lightness, chroma, hue⟩

/- The point at a distance and an angle. -/
def Lch.toLuv (c : Lch) : Luv :=
  let angle := Color.toRadians c.hue
  ⟨c.lightness, angle.cos * c.chroma, angle.sin * c.chroma⟩

------------------------------------------------------------
-- The gamut
------------------------------------------------------------

/- A line in the chroma plane. -/
structure Luv.Line where
  slope : Float
  intercept : Float

/- The line on which a channel is zero, or one when `full` is one. -/
def Luv.gamutLine
    (l scale : Float)
    (row : Luv.Row)
    (full : Float) : Luv.Line :=
  let slopeTop :=
    (284517.0 * row.first - 94839.0 * row.third) * scale
  let interceptTop :=
    (838422.0 * row.third + 769860.0 * row.second
        + 731718.0 * row.first) * l * scale
      - 769860.0 * full * l
  let bottom :=
    (632260.0 * row.third - 126452.0 * row.second) * scale
      + 126452.0 * full
  ⟨slopeTop / bottom, interceptTop / bottom⟩

/- The lines that bound the displayable colors of a lightness. -/
def Luv.gamut (l : Float) : List Luv.Line :=
  let cubed := Color.cube (l + 16.0) / 1560896.0
  let scale := if cubed > Luv.epsilon then cubed else l / Luv.kappa
  [Luv.redRow, Luv.greenRow, Luv.blueRow].flatMap fun row =>
    [Luv.gamutLine l scale row 0.0, Luv.gamutLine l scale row 1.0]

/- The distance of a line from the centre at an angle. -/
def Luv.Line.distance
    (line : Luv.Line)
    (angle : Float) : Float :=
  line.intercept / (angle.sin - line.slope * angle.cos)

/- The largest displayable chroma of a lightness and a hue. -/
def Luv.maxChroma (l hue : Float) : Float :=
  let angle := Color.toRadians hue
  let distances :=
    (Luv.gamut l).map fun line => line.distance angle
  (distances.filter fun d => d ≥ 0.0).foldl Color.smaller
    Color.largestFloat

/- White and black have no chroma. -/
def Hsluv.toLch (c : Hsluv) : Lch :=
  if c.lightness > 99.9999999 then
    ⟨100.0, 0.0, c.hue⟩
  else if c.lightness < 1e-8 then
    ⟨0.0, 0.0, c.hue⟩
  else
    ⟨c.lightness,
      Luv.maxChroma c.lightness c.hue / 100.0 * c.saturation,
      c.hue⟩

/- White and black have no saturation. -/
def Lch.toHsluv (c : Lch) : Hsluv :=
  if c.lightness > 99.9999999 then
    ⟨c.hue, 0.0, 100.0⟩
  else if c.lightness < 1e-8 then
    ⟨c.hue, 0.0, 0.0⟩
  else
    ⟨c.hue,
      c.chroma / Luv.maxChroma c.lightness c.hue * 100.0,
      c.lightness⟩

/- Channels of a perceptual color. -/
def Hsluv.toRgb (c : Hsluv) : Rgb :=
  c.toLch.toLuv.toXyz.toRgb

/- The perceptual color of channels. -/
def Rgb.toHsluv (c : Rgb) : Hsluv :=
  c.toXyz.toLuv.toLch.toHsluv

------------------------------------------------------------
-- Eight bits
------------------------------------------------------------

namespace Color

/- A channel of eight bits; NaN gives zero. -/
def channelOfUnit (c : Float) : UInt8 :=
  (clamp 0.0 255.0 (c * 255.0).round).toUInt8

/- The nearest color of eight bits. -/
def ofRgb (c : Rgb) : Color :=
  ⟨channelOfUnit c.red, channelOfUnit c.green,
    channelOfUnit c.blue⟩

/- A channel between zero and one. -/
def channelToUnit (c : UInt8) : Float :=
  c.toFloat / 255.0

/- The channels of a color between zero and one. -/
def toRgb (c : Color) : Rgb :=
  ⟨channelToUnit c.red, channelToUnit c.green,
    channelToUnit c.blue⟩

/- The color of a hue with saturation and lightness up to one. -/
def ofHsl (hue saturation lightness : Float) : Color :=
  ofRgb (Hsl.toRgb ⟨hue, saturation, lightness⟩)

/-
  The color of a perceptual hue with saturation and lightness
  up to one.
-/
def ofHsluv (hue saturation lightness : Float) : Color :=
  ofRgb
    (Hsluv.toRgb ⟨hue, saturation * 100.0, lightness * 100.0⟩)

/- The perceptual coordinates of a color. -/
def toHsluv (c : Color) : Hsluv :=
  c.toRgb.toHsluv

end Color

end MapStyle
