/-
# Attribute values of category icons

The value grammars with which `routes/objects.rs` checks the attributes of an
SVG category icon.

* `validateSvgAttribute` : the check of one attribute, one grammar for each
  kind of value;
* `Inert` : a value no browser takes for anything but numbers, names and colours;
* `validateSvgAttribute_sound` : an accepted attribute is on the allowlist, and
  its value is inert or the namespace of SVG.
-/
import Mathlib.Tactic.IntervalCases
import Mathlib.Data.List.Infix
import CtfZone.FloatTexts
import CtfZone.FlagPolicy
import CtfZone.Journal

open FloatTexts

namespace CtfZone.CategorySvg

/-! ## Characters and numbers -/

/-- `char::is_ascii_whitespace`. -/
def isAsciiWhitespace (c : Char) : Bool :=
  c.toNat = 0x20 || c.toNat = 0x09 || c.toNat = 0x0A || c.toNat = 0x0C || c.toNat = 0x0D

/-- A character `parse_svg_numbers` takes. -/
def isNumbersChar (c : Char) : Bool :=
  c.isDigit || isAsciiWhitespace c || [',', '.', '+', '-', 'e', 'E'].contains c

/-- A character of the data of a path. -/
def isPathChar (c : Char) : Bool :=
  c.isDigit || isAsciiWhitespace c || ".,+-MmZzLlHhVvCcSsQqTtAaEe".toList.contains c

/-- A character `validate_svg_transform` takes. -/
def isTransformChar (c : Char) : Bool :=
  c.isAlphanum || isAsciiWhitespace c || ['.', ',', '+', '-', '(', ')'].contains c

/-- `u8::is_ascii_hexdigit`. -/
def isHexDigit (c : Char) : Bool := c.isDigit || "abcdefABCDEF".toList.contains c

/-- `split_whitespace`. -/
def splitWhitespace (text : List Char) : List (List Char) :=
  (text.splitOnP Journal.isWhitespace).filter (· ≠ [])

/-- `parse_svg_numbers`. -/
def parseSvgNumbers (value : String) : Except String (List Float) :=
  if value.isEmpty || ! value.toList.all isNumbersChar then .error "svg_number_invalid"
  else
    let normalized := value.toList.map fun c => if c = ',' then ' ' else c
    match (splitWhitespace normalized).mapM parseF64 with
    | none => .error "svg_number_invalid"
    | some values =>
      if values.isEmpty || 1024 < values.length ||
          values.any (fun number => ! number.isFinite || number.abs > 1000000.0) then
        .error "svg_number_invalid"
      else .ok values

/-! ## Value grammars -/

/-- `validate_svg_number`. -/
def validateSvgNumber (value : String) : Except String Unit := do
  let values ← parseSvgNumbers value
  if values.length = 1 then .ok () else .error "svg_number_invalid"

/-- `value.strip_suffix("px").unwrap_or(value)`. -/
def withoutPixels (value : List Char) : List Char :=
  if ['p', 'x'] <:+ value then value.take (value.length - 2) else value

/-- `validate_svg_dimension`. -/
def validateSvgDimension (value : String) : Except String Unit :=
  match parseF64 (withoutPixels value.toList) with
  | none => .error "svg_dimension_invalid"
  | some number =>
    if number.isFinite && number > 0.0 && number ≤ 4096.0 then .ok ()
    else .error "svg_dimension_invalid"

/-- A `#` and three, four, six or eight hexadecimal digits. -/
def isHexColour (value : String) : Bool :=
  [4, 5, 7, 9].contains value.utf8ByteSize &&
    match value.toList with
    | '#' :: digits => digits.all isHexDigit
    | _ => false

/-- `validate_svg_paint`. -/
def validateSvgPaint (value : String) : Except String Unit :=
  if ["none", "currentColor"].contains value || isHexColour value then .ok ()
  else .error "svg_paint_invalid"

/-- `validate_svg_opacity`. -/
def validateSvgOpacity (value : String) : Except String Unit :=
  match parseF64 value.toList with
  | none => .error "svg_opacity_invalid"
  | some number =>
    if number.isFinite && 0.0 ≤ number && number ≤ 1.0 then .ok ()
    else .error "svg_opacity_invalid"

/-- The functions of `validate_svg_transform`. -/
def transformFunctions : List String :=
  ["matrix", "translate", "scale", "rotate", "skewX", "skewY"]

/-- `validate_svg_transform`. -/
def validateSvgTransform (value : String) : Except String Unit :=
  if value.isEmpty || ! value.toList.all isTransformChar then .error "svg_transform_invalid"
  else if (value.toList.splitOnP (! ·.isAlpha)).all
      (fun word => word.isEmpty || transformFunctions.contains (String.ofList word)) then .ok ()
  else .error "svg_transform_invalid"

/-- The values of `viewBox`: a square of positive size. -/
def validateSvgViewBox (value : String) : Except String Unit := do
  let values ← parseSvgNumbers value
  match values with
  | [_, _, width, height] =>
    if values.all (fun number => number.isFinite && number.abs ≤ 1000000.0) &&
        width > 0.0 && width == height then .ok ()
    else .error "svg_viewbox_invalid"
  | _ => .error "svg_viewbox_invalid"

/-- The values of `points`: pairs of numbers, and at least two of them. -/
def validateSvgPoints (value : String) : Except String Unit := do
  let numbers ← parseSvgNumbers value
  if 4 ≤ numbers.length && numbers.length % 2 = 0 then .ok () else .error "svg_points_invalid"

/-- The namespace of SVG. -/
def svgNamespace : String := "http://www.w3.org/2000/svg"

/-- `validate_svg_attribute`. -/
def validateSvgAttribute (element name value : String) : Except String Unit :=
  if 8192 < value.utf8ByteSize || value.toList.any isControl then .error "svg_attribute_invalid"
  else if name = "xmlns" && element = "svg" && value = svgNamespace then .ok ()
  else if name = "viewBox" && element = "svg" then validateSvgViewBox value
  else if ["width", "height"].contains name && element = "svg" then validateSvgDimension value
  else if name = "d" && element = "path" then
    if ! value.isEmpty && value.toList.all isPathChar then .ok () else .error "svg_path_invalid"
  else if name = "points" && ["polyline", "polygon"].contains element then validateSvgPoints value
  else if ["x", "y", "x1", "y1", "x2", "y2", "cx", "cy", "r", "rx", "ry", "stroke-width",
      "stroke-dashoffset"].contains name then validateSvgNumber value
  else if ["fill", "stroke"].contains name then validateSvgPaint value
  else if ["opacity", "fill-opacity", "stroke-opacity"].contains name then
    validateSvgOpacity value
  else if name = "stroke-linecap" && ["butt", "round", "square"].contains value then .ok ()
  else if name = "stroke-linejoin" && ["miter", "round", "bevel"].contains value then .ok ()
  else if ["fill-rule", "clip-rule"].contains name && ["nonzero", "evenodd"].contains value then
    .ok ()
  else if name = "stroke-dasharray" && value = "none" then .ok ()
  else if name = "stroke-dasharray" then (parseSvgNumbers value).map fun _ => ()
  else if name = "vector-effect" && value = "non-scaling-stroke" then .ok ()
  else if name = "transform" then validateSvgTransform value
  else .error "svg_attribute_forbidden"

/-! ## The allowlist -/

/-- The attributes only the elements of this name may have. -/
def ownAttributes : String → List String
  | "svg" => ["xmlns", "viewBox", "width", "height"]
  | "path" => ["d"]
  | "polyline" => ["points"]
  | "polygon" => ["points"]
  | _ => []

/-- The attributes every element may have. -/
def sharedAttributes : List String :=
  ["x", "y", "x1", "y1", "x2", "y2", "cx", "cy", "r", "rx", "ry", "stroke-width",
    "stroke-dashoffset", "fill", "stroke", "opacity", "fill-opacity", "stroke-opacity",
    "stroke-linecap", "stroke-linejoin", "fill-rule", "clip-rule", "stroke-dasharray",
    "vector-effect", "transform"]

/-- The element may have the attribute. -/
def Allowlisted (element name : String) : Prop :=
  name ∈ ownAttributes element ∨ name ∈ sharedAttributes

/-- The characters of an inert value: no `:` and no `/` of a URL, no `&` of a
reference, no bracket or quote of markup. -/
def isInertChar (c : Char) : Bool := c.isAlphanum || " .,+-()#".toList.contains c

/-- **A value without active content.**  It has no character of a URL, an entity
or markup, neither `url` nor `script` in any case of its letters, and a `#` only
in front of the digits of a colour. -/
structure Inert (value : String) : Prop where
  characters : ∀ c ∈ value.toList, isInertChar c = true
  noUrl : ¬ ['u', 'r', 'l'] <:+: value.toList.map Char.toLower
  noScript : ¬ ['s', 'c', 'r', 'i', 'p', 't'] <:+: value.toList.map Char.toLower
  colour : '#' ∈ value.toList → isHexColour value = true

instance (value : String) : Decidable (Inert value) :=
  decidable_of_iff
    (value.toList.all isInertChar = true ∧
      ¬ ['u', 'r', 'l'] <:+: value.toList.map Char.toLower ∧
      ¬ ['s', 'c', 'r', 'i', 'p', 't'] <:+: value.toList.map Char.toLower ∧
      ('#' ∈ value.toList → isHexColour value = true))
    ⟨fun ⟨hchars, hurl, hscript, hcolour⟩ =>
        ⟨List.all_eq_true.mp hchars, hurl, hscript, hcolour⟩,
      fun h => ⟨List.all_eq_true.mpr h.characters, h.noUrl, h.noScript, h.colour⟩⟩

/-! ## Inert values -/

/-- Letters that spell neither `url` nor `script`. -/
def Harmless (letters : List Char) : Prop :=
  letters.all isInertChar = true ∧ 'u' ∉ letters.map Char.toLower ∧
    ∃ l ∈ ['s', 'c', 'r', 'i', 'p', 't'], l ∉ letters.map Char.toLower

instance (letters : List Char) : Decidable (Harmless letters) :=
  decidable_of_iff
    (letters.all isInertChar = true ∧ 'u' ∉ letters.map Char.toLower ∧
      ['s', 'c', 'r', 'i', 'p', 't'].any (! (letters.map Char.toLower).contains ·) = true)
    (by simp [Harmless])

/-- A value in harmless letters is inert, if it is a colour where it may have a
`#`. -/
theorem inert_of_letters {value : String} (letters : List Char) (hharmless : Harmless letters)
    (hcolour : '#' ∈ letters → isHexColour value = true)
    (h : ∀ c ∈ value.toList, c ∈ letters) : Inert value := by
  obtain ⟨hinert, hu, l, hl, hmissing⟩ := hharmless
  have hlower : ∀ d ∈ value.toList.map Char.toLower, d ∈ letters.map Char.toLower :=
    fun d hd => List.map_subset _ h hd
  refine ⟨fun c hc => List.all_eq_true.mp hinert c (h c hc), ?_, ?_, ?_⟩
  · intro hwithin
    exact hu (hlower _ (hwithin.subset (by decide)))
  · intro hwithin
    exact hmissing (hlower _ (hwithin.subset hl))
  · intro hmem
    exact hcolour (h _ hmem)

/-- The decimal digits. -/
def decimalDigits : List Char := "0123456789".toList

theorem mem_decimalDigits {c : Char} (h : c.isDigit = true) : c ∈ decimalDigits := by
  obtain ⟨hlow, hhigh⟩ := FloatTexts.isDigit_iff.mp h
  have hc : c = Char.ofNat c.toNat := (Char.ofNat_toNat c).symm
  rw [hc]
  generalize c.toNat = n at hlow hhigh
  interval_cases n
  all_goals decide

theorem eq_space {c : Char} (h : isAsciiWhitespace c = true) (hcontrol : isControl c = false) :
    c = ' ' := by
  simp only [isControl, Bool.or_eq_false_iff, decide_eq_false_iff_not] at hcontrol
  have hlow : ¬ c.toNat < 32 := hcontrol.1
  simp only [isAsciiWhitespace, Bool.or_eq_true, decide_eq_true_eq] at h
  have hspace : c.toNat = 32 := by omega
  rw [← Char.ofNat_toNat c, hspace]

/-- The characters of a value without control characters, class by class. -/
theorem mem_letters {c : Char} {others : List Char} (hcontrol : isControl c = false)
    (h : (c.isDigit || isAsciiWhitespace c || others.contains c) = true) :
    c ∈ decimalDigits ++ ' ' :: others := by
  rw [Bool.or_eq_true, Bool.or_eq_true] at h
  rcases h with (hdigit | hspace) | hother
  · exact List.mem_append_left _ (mem_decimalDigits hdigit)
  · rw [eq_space hspace hcontrol]
    simp
  · exact List.mem_append_right _ (List.mem_cons_of_mem _ (List.contains_iff_mem.mp hother))

theorem parseSvgNumbers_chars {value : String} {values : List Float}
    (h : parseSvgNumbers value = .ok values) : ∀ c ∈ value.toList, isNumbersChar c = true := by
  unfold parseSvgNumbers at h
  split at h
  · cases h
  · rename_i hchars
    rw [Bool.or_eq_true, not_or, Bool.not_eq_true, Bool.not_eq_true, Bool.not_eq_false'] at hchars
    exact List.all_eq_true.mp hchars.2

/-- The letters of lists of numbers. -/
def numberLetters : List Char := decimalDigits ++ ' ' :: [',', '.', '+', '-', 'e', 'E']

/-- The letters of the data of a path. -/
def pathLetters : List Char :=
  decimalDigits ++ ' ' :: ".,+-MmZzLlHhVvCcSsQqTtAaEe".toList

/-- The letters of a dimension. -/
def dimensionLetters : List Char := decimalDigits ++ ['.', 'e', 'E', '+', '-', 'p', 'x']

/-- The letters of a transformation. -/
def transformLetters : List Char :=
  (decimalDigits ++ ' ' :: ['.', ',', '+', '-', '(', ')']) ++
    transformFunctions.flatMap String.toList

/-- Every character that does not separate stands in a part. -/
theorem mem_splitOnP {α : Type} {p : α → Bool} {a : α} (ha : p a = false) {l : List α}
    (h : a ∈ l) : ∃ part ∈ l.splitOnP p, a ∈ part := by
  induction l with
  | nil => cases h
  | cons b l ih =>
    rw [List.splitOnP_cons_eq_if_modifyHead]
    obtain ⟨first, rest, hsplit⟩ := List.exists_cons_of_ne_nil (List.splitOnP_ne_nil p l)
    rcases List.mem_cons.mp h with rfl | hmem
    · rw [if_neg (by simp [ha]), hsplit]
      exact ⟨a :: first, List.mem_cons_self, List.mem_cons_self⟩
    · obtain ⟨part, hpart, hin⟩ := ih hmem
      by_cases hb : p b = true
      · rw [if_pos hb]
        exact ⟨part, List.mem_cons_of_mem _ hpart, hin⟩
      · rw [if_neg hb, hsplit]
        rw [hsplit] at hpart
        rcases List.mem_cons.mp hpart with rfl | hrest
        · exact ⟨b :: part, List.mem_cons_self, List.mem_cons_of_mem _ hin⟩
        · exact ⟨part, List.mem_cons_of_mem _ hrest, hin⟩

section Values

variable {value : String} (hcontrol : ∀ c ∈ value.toList, isControl c = false)
include hcontrol

theorem parseSvgNumbers_inert {values : List Float} (h : parseSvgNumbers value = .ok values) :
    Inert value := by
  apply inert_of_letters numberLetters (by decide) (fun h => absurd h (by decide))
  intro c hc
  exact mem_letters (hcontrol c hc) (parseSvgNumbers_chars h c hc)

/-- The data of a path is inert. -/
theorem path_inert (h : value.toList.all isPathChar = true) : Inert value := by
  apply inert_of_letters pathLetters (by decide) (fun h => absurd h (by decide))
  intro c hc
  exact mem_letters (hcontrol c hc) (List.all_eq_true.mp h c hc)

/-- A transformation is inert: its letters are those of its functions. -/
theorem transform_inert (h : validateSvgTransform value = .ok ()) : Inert value := by
  apply inert_of_letters transformLetters (by decide) (fun h => absurd h (by decide))
  unfold validateSvgTransform at h
  split at h
  · cases h
  · rename_i hchars
    rw [Bool.or_eq_true, not_or, Bool.not_eq_true, Bool.not_eq_true, Bool.not_eq_false'] at hchars
    split at h
    · rename_i hwords
      intro c hc
      by_cases hletter : c.isAlpha = true
      · obtain ⟨word, hword, hmem⟩ := mem_splitOnP (p := (! ·.isAlpha)) (by simpa using hletter) hc
        have hfunction := List.all_eq_true.mp hwords word hword
        rw [Bool.or_eq_true, List.isEmpty_iff, List.contains_iff_mem] at hfunction
        rcases hfunction with rfl | hfunction
        · cases hmem
        · refine List.mem_append_right _ (List.mem_flatMap.mpr ⟨_, hfunction, ?_⟩)
          simpa using hmem
      · have hchar := List.all_eq_true.mp hchars.2 c hc
        refine List.mem_append_left _ (mem_letters (hcontrol c hc) ?_)
        rw [isTransformChar, Char.isAlphanum, Bool.not_eq_true _ |>.mp hletter, Bool.false_or]
          at hchar
        exact hchar
    · cases h

end Values

theorem numeral_letters {s : List Char} {number : Float} (h : parseF64 s = some number)
    (hfinite : number.isFinite = true) : ∀ c ∈ s, c ∈ dimensionLetters := by
  intro c hc
  have hchar := parseF64_finite h hfinite c hc
  rw [isNumeralChar, Bool.or_eq_true] at hchar
  rcases hchar with hdigit | hother
  · exact List.mem_append_left _ (mem_decimalDigits hdigit)
  · refine List.mem_append_right _ ?_
    rw [List.contains_iff_mem] at hother
    exact List.mem_append_left ['p', 'x'] hother

/-- An opacity is inert: it is a finite number. -/
theorem opacity_inert {value : String} (h : validateSvgOpacity value = .ok ()) : Inert value := by
  unfold validateSvgOpacity at h
  split at h
  · cases h
  · rename_i number hnumber
    rcases ite_eq_iff.mp h with ⟨hrange, -⟩ | ⟨-, h⟩
    · rw [Bool.and_eq_true, Bool.and_eq_true] at hrange
      apply inert_of_letters dimensionLetters (by decide) (fun h => absurd h (by decide))
      exact numeral_letters hnumber hrange.1.1
    · cases h

/-- A dimension is inert: it is a finite number, with or without its unit. -/
theorem dimension_inert {value : String} (h : validateSvgDimension value = .ok ()) :
    Inert value := by
  apply inert_of_letters dimensionLetters (by decide) (fun h => absurd h (by decide))
  have hnumeral : ∀ c ∈ withoutPixels value.toList, c ∈ dimensionLetters := by
    unfold validateSvgDimension at h
    split at h
    · cases h
    · rename_i number hnumber
      rcases ite_eq_iff.mp h with ⟨hrange, -⟩ | ⟨-, h⟩
      · rw [Bool.and_eq_true, Bool.and_eq_true] at hrange
        exact numeral_letters hnumber hrange.1.1
      · cases h
  unfold withoutPixels at hnumeral
  intro c hc
  by_cases hunit : ['p', 'x'] <:+ value.toList
  · rw [if_pos hunit] at hnumeral
    obtain ⟨number, hnumber⟩ := hunit
    have htake : value.toList.take (value.toList.length - 2) = number := by
      rw [← hnumber]
      simp
    rw [htake] at hnumeral
    rw [← hnumber, List.mem_append] at hc
    rcases hc with hc | hc
    · exact hnumeral c hc
    · exact List.mem_append_right _ (List.mem_append_right ['.', 'e', 'E', '+', '-'] hc)
  · rw [if_neg hunit] at hnumeral
    exact hnumeral c hc

theorem mem_hexDigits {c : Char} (h : isHexDigit c = true) :
    c ∈ decimalDigits ++ "abcdefABCDEF".toList := by
  rw [isHexDigit, Bool.or_eq_true] at h
  rcases h with hdigit | hletter
  · exact List.mem_append_left _ (mem_decimalDigits hdigit)
  · exact List.mem_append_right _ (List.contains_iff_mem.mp hletter)

/-- A colour is inert. -/
theorem colour_inert {value : String} (h : isHexColour value = true) : Inert value := by
  apply inert_of_letters ('#' :: (decimalDigits ++ "abcdefABCDEF".toList)) (by decide) fun _ => h
  rw [isHexColour, Bool.and_eq_true] at h
  obtain ⟨-, hdigits⟩ := h
  split at hdigits
  · rename_i digits heq
    rw [heq]
    refine List.forall_mem_cons.mpr ⟨List.mem_cons_self, fun c hc => ?_⟩
    exact List.mem_cons_of_mem _ (mem_hexDigits (List.all_eq_true.mp hdigits c hc))
  · cases hdigits

/-- The names a value may be spelled out as. -/
def fixedValues : List String :=
  ["none", "currentColor", "butt", "round", "square", "miter", "bevel", "nonzero", "evenodd",
    "non-scaling-stroke"]

theorem inert_of_mem_fixedValues {value : String} (h : value ∈ fixedValues) : Inert value := by
  have hall : ∀ fixed ∈ fixedValues, Inert fixed := by decide +kernel
  exact hall value h

/-! ## Accepted attributes -/

/-- A list of numbers that passes a further check is inert. -/
theorem numbers_inert {value : String} (hcontrol : ∀ c ∈ value.toList, isControl c = false)
    {check : List Float → Except String Unit}
    (h : (do check (← parseSvgNumbers value) : Except String Unit) = .ok ()) : Inert value := by
  obtain ⟨values, hvalues, -⟩ := bind_eq_ok.mp h
  exact parseSvgNumbers_inert hcontrol hvalues

theorem paint_inert {value : String} (h : validateSvgPaint value = .ok ()) : Inert value := by
  unfold validateSvgPaint at h
  split at h
  · rename_i hpaint
    rw [Bool.or_eq_true, List.contains_iff_mem] at hpaint
    rcases hpaint with hname | hcolour
    · have hfixed : ["none", "currentColor"] ⊆ fixedValues := by decide
      exact inert_of_mem_fixedValues (hfixed hname)
    · exact colour_inert hcolour
  · cases h

/-- **An accepted attribute is on the allowlist and inert.**  Its value has no
active content, the one exception being the namespace of the root. -/
theorem validateSvgAttribute_sound {element name value : String}
    (h : validateSvgAttribute element name value = .ok ()) :
    Allowlisted element name ∧
      (element = "svg" ∧ name = "xmlns" ∧ value = svgNamespace ∨ Inert value) := by
  rcases ite_eq_iff.mp h with ⟨-, h⟩ | ⟨hplain, h⟩
  · cases h
  rw [Bool.or_eq_true, not_or, Bool.not_eq_true, Bool.not_eq_true] at hplain
  have hcontrol : ∀ c ∈ value.toList, isControl c = false := by
    simpa only [List.any_eq_false, Bool.not_eq_true] using hplain.2
  have hown {names : List String} (hname : names.contains name = true)
      (hnames : names ⊆ ownAttributes element) : Allowlisted element name :=
    .inl (hnames (List.contains_iff_mem.mp hname))
  have hshared {names : List String} (hname : names.contains name = true)
      (hnames : names ⊆ sharedAttributes) : Allowlisted element name :=
    .inr (hnames (List.contains_iff_mem.mp hname))
  have hfixed {values : List String} (hvalue : values.contains value = true)
      (hvalues : values ⊆ fixedValues) : Inert value :=
    inert_of_mem_fixedValues (hvalues (List.contains_iff_mem.mp hvalue))
  -- one arm of the source after the other
  rcases ite_eq_iff.mp h with ⟨harm, -⟩ | ⟨-, h⟩
  · simp only [Bool.and_eq_true, decide_eq_true_eq] at harm
    obtain ⟨⟨rfl, rfl⟩, rfl⟩ := harm
    exact ⟨.inl (by decide), .inl ⟨rfl, rfl, rfl⟩⟩
  rcases ite_eq_iff.mp h with ⟨harm, hvalid⟩ | ⟨-, h⟩
  · simp only [Bool.and_eq_true, decide_eq_true_eq] at harm
    obtain ⟨rfl, rfl⟩ := harm
    exact ⟨.inl (by decide), .inr (numbers_inert hcontrol hvalid)⟩
  rcases ite_eq_iff.mp h with ⟨harm, hvalid⟩ | ⟨-, h⟩
  · simp only [Bool.and_eq_true, decide_eq_true_eq] at harm
    obtain ⟨hname, rfl⟩ := harm
    exact ⟨hown hname (by decide), .inr (dimension_inert hvalid)⟩
  rcases ite_eq_iff.mp h with ⟨harm, hvalid⟩ | ⟨-, h⟩
  · simp only [Bool.and_eq_true, decide_eq_true_eq] at harm
    obtain ⟨rfl, rfl⟩ := harm
    rcases ite_eq_iff.mp hvalid with ⟨hpath, -⟩ | ⟨-, hnone⟩
    · rw [Bool.and_eq_true] at hpath
      exact ⟨.inl (by decide), .inr (path_inert hcontrol hpath.2)⟩
    · cases hnone
  rcases ite_eq_iff.mp h with ⟨harm, hvalid⟩ | ⟨-, h⟩
  · simp only [Bool.and_eq_true, decide_eq_true_eq, List.contains_iff_mem] at harm
    obtain ⟨rfl, helement⟩ := harm
    refine ⟨.inl ?_, .inr (numbers_inert hcontrol hvalid)⟩
    rcases List.mem_pair.mp helement with rfl | rfl
    all_goals decide
  rcases ite_eq_iff.mp h with ⟨harm, hvalid⟩ | ⟨-, h⟩
  · exact ⟨hshared harm (by decide), .inr (numbers_inert hcontrol hvalid)⟩
  rcases ite_eq_iff.mp h with ⟨harm, hvalid⟩ | ⟨-, h⟩
  · exact ⟨hshared harm (by decide), .inr (paint_inert hvalid)⟩
  rcases ite_eq_iff.mp h with ⟨harm, hvalid⟩ | ⟨-, h⟩
  · exact ⟨hshared harm (by decide), .inr (opacity_inert hvalid)⟩
  rcases ite_eq_iff.mp h with ⟨harm, -⟩ | ⟨-, h⟩
  · simp only [Bool.and_eq_true, decide_eq_true_eq] at harm
    obtain ⟨rfl, hvalue⟩ := harm
    exact ⟨.inr (by decide), .inr (hfixed hvalue (by decide))⟩
  rcases ite_eq_iff.mp h with ⟨harm, -⟩ | ⟨-, h⟩
  · simp only [Bool.and_eq_true, decide_eq_true_eq] at harm
    obtain ⟨rfl, hvalue⟩ := harm
    exact ⟨.inr (by decide), .inr (hfixed hvalue (by decide))⟩
  rcases ite_eq_iff.mp h with ⟨harm, -⟩ | ⟨-, h⟩
  · rw [Bool.and_eq_true] at harm
    exact ⟨hshared harm.1 (by decide), .inr (hfixed harm.2 (by decide))⟩
  rcases ite_eq_iff.mp h with ⟨harm, -⟩ | ⟨-, h⟩
  · simp only [Bool.and_eq_true, decide_eq_true_eq] at harm
    obtain ⟨rfl, rfl⟩ := harm
    exact ⟨.inr (by decide), .inr (inert_of_mem_fixedValues (by decide))⟩
  rcases ite_eq_iff.mp h with ⟨rfl, hvalid⟩ | ⟨-, h⟩
  · rcases hvalues : parseSvgNumbers value with text | values
    · rw [hvalues] at hvalid
      cases hvalid
    · exact ⟨.inr (by decide), .inr (parseSvgNumbers_inert hcontrol hvalues)⟩
  rcases ite_eq_iff.mp h with ⟨harm, -⟩ | ⟨-, h⟩
  · simp only [Bool.and_eq_true, decide_eq_true_eq] at harm
    obtain ⟨rfl, rfl⟩ := harm
    exact ⟨.inr (by decide), .inr (inert_of_mem_fixedValues (by decide))⟩
  rcases ite_eq_iff.mp h with ⟨rfl, hvalid⟩ | ⟨-, h⟩
  · exact ⟨.inr (by decide), .inr (transform_inert hcontrol hvalid)⟩
  · cases h

end CtfZone.CategorySvg
