import SvgComponent.Text.Casing

/-!
# Names of a target

Each target has its own names. React spells attributes in camel case, by a table
(`reactAttributes`) and, for a name with a namespace that the table does not have, by writing
the character behind the colon as a capital (`foldColons`). Preact takes the names of the
document, but has none for most namespaces. React Native has components for some elements
(`nativeElements`) and none for the others.
-/

namespace SvgComponent.Target

/-- The attributes that are spelled differently in React. -/
def reactAttributes : List (String × String) :=
  [("accent-height", "accentHeight"), ("alignment-baseline", "alignmentBaseline"),
   ("arabic-form", "arabicForm"), ("baseline-shift", "baselineShift"),
   ("cap-height", "capHeight"), ("class", "className"), ("clip-path", "clipPath"),
   ("clip-rule", "clipRule"), ("color-interpolation", "colorInterpolation"),
   ("color-interpolation-filters", "colorInterpolationFilters"),
   ("color-profile", "colorProfile"), ("color-rendering", "colorRendering"),
   ("crossorigin", "crossOrigin"), ("dominant-baseline", "dominantBaseline"),
   ("enable-background", "enableBackground"), ("fill-opacity", "fillOpacity"),
   ("fill-rule", "fillRule"), ("flood-color", "floodColor"), ("flood-opacity", "floodOpacity"),
   ("font-family", "fontFamily"), ("font-size", "fontSize"),
   ("font-size-adjust", "fontSizeAdjust"), ("font-stretch", "fontStretch"),
   ("font-style", "fontStyle"), ("font-variant", "fontVariant"), ("font-weight", "fontWeight"),
   ("glyph-name", "glyphName"), ("glyph-orientation-horizontal", "glyphOrientationHorizontal"),
   ("glyph-orientation-vertical", "glyphOrientationVertical"), ("horiz-adv-x", "horizAdvX"),
   ("horiz-origin-x", "horizOriginX"), ("image-rendering", "imageRendering"),
   ("letter-spacing", "letterSpacing"), ("lighting-color", "lightingColor"),
   ("marker-end", "markerEnd"), ("marker-mid", "markerMid"), ("marker-start", "markerStart"),
   ("overline-position", "overlinePosition"), ("overline-thickness", "overlineThickness"),
   ("paint-order", "paintOrder"), ("panose-1", "panose1"), ("pointer-events", "pointerEvents"),
   ("rendering-intent", "renderingIntent"), ("shape-rendering", "shapeRendering"),
   ("stop-color", "stopColor"), ("stop-opacity", "stopOpacity"),
   ("strikethrough-position", "strikethroughPosition"),
   ("strikethrough-thickness", "strikethroughThickness"), ("stroke-dasharray", "strokeDasharray"),
   ("stroke-dashoffset", "strokeDashoffset"), ("stroke-linecap", "strokeLinecap"),
   ("stroke-linejoin", "strokeLinejoin"), ("stroke-miterlimit", "strokeMiterlimit"),
   ("stroke-opacity", "strokeOpacity"), ("stroke-width", "strokeWidth"), ("tabindex", "tabIndex"),
   ("text-anchor", "textAnchor"), ("text-decoration", "textDecoration"),
   ("text-rendering", "textRendering"), ("underline-position", "underlinePosition"),
   ("underline-thickness", "underlineThickness"), ("unicode-bidi", "unicodeBidi"),
   ("unicode-range", "unicodeRange"), ("units-per-em", "unitsPerEm"),
   ("v-alphabetic", "vAlphabetic"), ("v-hanging", "vHanging"), ("v-ideographic", "vIdeographic"),
   ("v-mathematical", "vMathematical"), ("vector-effect", "vectorEffect"),
   ("vert-adv-y", "vertAdvY"), ("vert-origin-x", "vertOriginX"), ("vert-origin-y", "vertOriginY"),
   ("word-spacing", "wordSpacing"), ("writing-mode", "writingMode"), ("x-height", "xHeight"),
   ("xlink:actuate", "xlinkActuate"), ("xlink:arcrole", "xlinkArcrole"),
   ("xlink:href", "xlinkHref"), ("xlink:role", "xlinkRole"), ("xlink:show", "xlinkShow"),
   ("xlink:title", "xlinkTitle"), ("xlink:type", "xlinkType"), ("xml:base", "xmlBase"),
   ("xml:lang", "xmlLang"), ("xml:space", "xmlSpace"), ("xmlns:xlink", "xmlnsXlink")]

/-- The components of React Native, by the element they draw. -/
def nativeElements : List (String × String) :=
  [("circle", "Circle"), ("clipPath", "ClipPath"), ("defs", "Defs"), ("ellipse", "Ellipse"),
   ("feBlend", "FeBlend"), ("feColorMatrix", "FeColorMatrix"), ("feComposite", "FeComposite"),
   ("feFlood", "FeFlood"), ("feGaussianBlur", "FeGaussianBlur"), ("feMerge", "FeMerge"),
   ("feMergeNode", "FeMergeNode"), ("feOffset", "FeOffset"), ("filter", "Filter"),
   ("foreignObject", "ForeignObject"), ("g", "G"), ("image", "Image"), ("line", "Line"),
   ("linearGradient", "LinearGradient"), ("marker", "Marker"), ("mask", "Mask"), ("path", "Path"),
   ("pattern", "Pattern"), ("polygon", "Polygon"), ("polyline", "Polyline"),
   ("radialGradient", "RadialGradient"), ("rect", "Rect"), ("stop", "Stop"), ("svg", "Svg"),
   ("symbol", "Symbol"), ("text", "Text"), ("textPath", "TextPath"), ("tspan", "TSpan"),
   ("use", "Use")]

/-- Drops colons; the character behind colons becomes a capital. -/
def foldColons (raise : Bool) : List Char → List Char
  | [] => []
  | c :: cs =>
    if c = ':' then foldColons true cs
    else (if raise then Text.toUpper c else [c]) ++ foldColons false cs

/-- The name of an attribute in React. -/
def reactAttribute (name : String) : String :=
  match reactAttributes.lookup name with
  | some renamed => renamed
  | none => String.ofList (foldColons false name.toList)

/-- The name of an attribute in Preact, if it has one. -/
def preactAttribute? (name : String) : Option String :=
  if name = "xlink:href" then some "href"
  else if name.toList.contains ':' then none
  else some name

/-- The component of an element in React Native, if it has one. -/
def nativeElement? (name : String) : Option String :=
  nativeElements.lookup name

end SvgComponent.Target
