/-
# Category icons in SVG

`validated_category_svg_metadata` of `routes/objects.rs`, which reads the tokens
of an uploaded icon and keeps a stack of the open elements.

* `Reader.read` : the branch of the loop for each token;
* `Lexed` : what the XML tokenizer promises, that a start tag comes in one piece
  and a declaration only at the start;
* `Forest` : elements with their contents, side by side, and the tokens that
  spell them;
* `Reader.Spells` : the tokens read so far are the forest of the document, the
  open elements with their contents so far, and the start tag that is being
  read.
-/
import CtfZone.SvgAttributes

namespace CtfZone.CategorySvg

/-! ## Tokens -/

/-- `xmlparser::ElementEnd`. -/
inductive ElementEnd
  | opened
  | empty
  | close (qualifier name : String)
  deriving DecidableEq

/-- `xmlparser::Token`, with the fields that are read; the prefix of a name is its
`qualifier`. -/
inductive Token
  | declaration (version : String) (encoding : Option String)
  | processingInstruction
  | comment
  | dtdStart
  | emptyDtd
  | entityDeclaration
  | dtdEnd
  | elementStart (qualifier name : String)
  | attribute (qualifier name value : String)
  | elementEnd (ending : ElementEnd)
  | text (text : String)
  | cdata
  deriving DecidableEq

/-- What the tokenizer yields next: `none` is an error. -/
abbrev Yielded := Option Token

/-! ## The loop -/

/-- The variables of the loop, the innermost element first. -/
structure Reader where
  elements : List String := []
  currentElement : Option String := none
  currentAttributes : List String := []
  rootSeen : Bool := false
  namespaceSeen : Bool := false
  squareViewBoxSeen : Bool := false
  elementCount : ℕ := 0
  attributeCount : ℕ := 0
  deriving DecidableEq

/-- The elements an icon may have. -/
def allowedElements : List String :=
  ["svg", "g", "path", "circle", "ellipse", "line", "polyline", "polygon", "rect"]

/-- `text.trim().is_empty()`. -/
def isBlank (text : String) : Bool := text.toList.all Journal.isWhitespace

/-- `eq_ignore_ascii_case`. -/
def eqIgnoreAsciiCase (a b : String) : Bool :=
  a.toList.map Char.toLower = b.toList.map Char.toLower

/-- `Token::Declaration`. -/
def Reader.readDeclaration (r : Reader) (version : String) (encoding : Option String) :
    Except String Reader :=
  if version ≠ "1.0" || encoding.any (! eqIgnoreAsciiCase · "utf-8") then
    .error "svg_declaration_invalid"
  else .ok r

/-- The place of a new element: the first one is the root, and no other is. -/
def Reader.checkPosition (r : Reader) (name : String) : Except String Unit :=
  if r.elements = [] then ensure (! r.rootSeen && name = "svg") "svg_root_invalid"
  else ensure (name ≠ "svg") "svg_nested_root_forbidden"

/-- `Token::ElementStart`. -/
def Reader.startElement (r : Reader) (qualifier name : String) : Except String Reader := do
  ensure (qualifier = "") "svg_namespace_prefix_forbidden"
  ensure (allowedElements.contains name) "svg_element_forbidden"
  r.checkPosition name
  let elementCount := r.elementCount + 1
  ensure (elementCount ≤ 256 && r.elements.length < 32) "svg_complexity_exceeded"
  return { r with
    elements := name :: r.elements
    currentElement := some name
    currentAttributes := []
    rootSeen := true
    elementCount := elementCount }

/-- `Token::Attribute`. -/
def Reader.readAttribute (r : Reader) (qualifier name value : String) :
    Except String Reader := do
  ensure (qualifier = "") "svg_attribute_prefix_forbidden"
  match r.currentElement with
  | none => .error "svg_attribute_position_invalid"
  | some element => do
    ensure (! r.currentAttributes.contains name) "svg_duplicate_attribute"
    let attributeCount := r.attributeCount + 1
    ensure (attributeCount ≤ 2048) "svg_complexity_exceeded"
    validateSvgAttribute element name value
    return { r with
      currentAttributes := r.currentAttributes ++ [name]
      attributeCount := attributeCount
      namespaceSeen := r.namespaceSeen || element = "svg" && name = "xmlns"
      squareViewBoxSeen := r.squareViewBoxSeen || element = "svg" && name = "viewBox" }

/-- `Token::ElementEnd`. -/
def Reader.endElement (r : Reader) : ElementEnd → Except String Reader
  | .opened => .ok { r with currentElement := none }
  | .empty =>
    match r.elements with
    | [] => .error "svg_structure_invalid"
    | _ :: elements => .ok { r with elements := elements, currentElement := none }
  | .close qualifier name =>
    match r.elements with
    | [] => .error "svg_structure_invalid"
    | top :: elements =>
      if qualifier ≠ "" || top ≠ name then .error "svg_structure_invalid"
      else .ok { r with elements := elements, currentElement := none }

/-- One round of the loop. -/
def Reader.read (r : Reader) : Token → Except String Reader
  | .declaration version encoding => r.readDeclaration version encoding
  | .elementStart qualifier name => r.startElement qualifier name
  | .attribute qualifier name value => r.readAttribute qualifier name value
  | .elementEnd ending => r.endElement ending
  | .text text => if isBlank text then .ok r else .error "svg_content_forbidden"
  | _ => .error "svg_content_forbidden"

/-- The loop. -/
def Reader.readAll (r : Reader) : List Yielded → Except String Reader
  | [] => .ok r
  | none :: _ => .error "svg_xml_invalid"
  | some token :: rest => do (← r.read token).readAll rest

/-- The object that is returned. -/
structure Metadata where
  format : String
  width : ℕ
  height : ℕ
  animated : Bool
  sanitized : Bool
  deriving DecidableEq

/-- `CATEGORY_ICON_DIMENSION`. -/
def categoryIconDimension : ℕ := 128

/-- `validated_category_svg_metadata`. -/
def validatedCategorySvgMetadata (tokenizer : String → List Yielded) (bytes : ByteArray) :
    Except String Metadata :=
  match String.fromUTF8? bytes with
  | none => .error "svg_utf8_invalid"
  | some source => do
    let r ← ({} : Reader).readAll (tokenizer source)
    if ! r.rootSeen || ! r.namespaceSeen || ! r.squareViewBoxSeen || r.elements ≠ [] then
      .error "svg_document_incomplete"
    else
      return {
        format := "svg"
        width := categoryIconDimension
        height := categoryIconDimension
        animated := false
        sanitized := true }

/-! ## What the tokenizer promises -/

/-- In a start tag there are attributes and its end, and outside there are
neither. -/
def lexedFrom : Bool → List Yielded → Bool
  | _, [] => true
  | _, none :: _ => true
  | inTag, some token :: rest =>
    match token with
    | .elementStart _ _ => ! inTag && lexedFrom true rest
    | .attribute _ _ _ => inTag && lexedFrom true rest
    | .elementEnd .opened => inTag && lexedFrom false rest
    | .elementEnd .empty => inTag && lexedFrom false rest
    | .declaration _ _ => false
    | _ => ! inTag && lexedFrom false rest

/-- The tokens stand in the order of a document. -/
def Lexed : List Yielded → Bool
  | some (.declaration _ _) :: rest => lexedFrom false rest
  | stream => lexedFrom false stream

/-! ## Forests -/

/-- The attributes of an element, with their values. -/
abbrev Attributes := List (String × String)

/-- Elements and texts side by side; a leaf is an element `<name …/>`. -/
inductive Forest
  | nil
  | text (value : String) (rest : Forest)
  | leaf (name : String) (attributes : Attributes) (rest : Forest)
  | node (name : String) (attributes : Attributes) (children rest : Forest)

/-- The tokens of a start tag before its end. -/
def tagTokens (name : String) (attributes : Attributes) : List Token :=
  .elementStart "" name :: attributes.map fun a => .attribute "" a.1 a.2

/-- The tokens that spell a forest. -/
def Forest.tokens : Forest → List Token
  | .nil => []
  | .text value rest => .text value :: rest.tokens
  | .leaf name attributes rest =>
    tagTokens name attributes ++ .elementEnd .empty :: rest.tokens
  | .node name attributes children rest =>
    tagTokens name attributes ++ .elementEnd .opened ::
      (children.tokens ++ .elementEnd (.close "" name) :: rest.tokens)

/-- The elements in the order of the document. -/
def Forest.elements : Forest → List (String × Attributes)
  | .nil => []
  | .text _ rest => rest.elements
  | .leaf name attributes rest => (name, attributes) :: rest.elements
  | .node name attributes children rest =>
    (name, attributes) :: (children.elements ++ rest.elements)

/-- The texts in the order of the document. -/
def Forest.texts : Forest → List String
  | .nil => []
  | .text value rest => value :: rest.texts
  | .leaf _ _ rest => rest.texts
  | .node _ _ children rest => children.texts ++ rest.texts

/-- The names of the elements that are in no other. -/
def Forest.roots : Forest → List String
  | .nil => []
  | .text _ rest => rest.roots
  | .leaf name _ rest => name :: rest.roots
  | .node name _ _ rest => name :: rest.roots

/-- The number of elements in one another. -/
def Forest.depth : Forest → ℕ
  | .nil => 0
  | .text _ rest => rest.depth
  | .leaf _ _ rest => max 1 rest.depth
  | .node _ _ children rest => max (children.depth + 1) rest.depth

/-- One forest behind another. -/
def Forest.append : Forest → Forest → Forest
  | .nil, g => g
  | .text value rest, g => .text value (rest.append g)
  | .leaf name attributes rest, g => .leaf name attributes (rest.append g)
  | .node name attributes children rest, g => .node name attributes children (rest.append g)

attribute [simp] Forest.tokens Forest.elements Forest.texts Forest.roots Forest.depth
  Forest.append

@[simp] theorem Forest.tokens_append (f g : Forest) :
    (f.append g).tokens = f.tokens ++ g.tokens := by
  induction f with
  | nil => rfl
  | text value rest ih => simp [ih]
  | leaf name attributes rest ih => simp [ih]
  | node name attributes children rest _ ih => simp [ih]

@[simp] theorem Forest.elements_append (f g : Forest) :
    (f.append g).elements = f.elements ++ g.elements := by
  induction f with
  | nil => rfl
  | text value rest ih => simp [ih]
  | leaf name attributes rest ih => simp [ih]
  | node name attributes children rest _ ih => simp [ih]

@[simp] theorem Forest.texts_append (f g : Forest) :
    (f.append g).texts = f.texts ++ g.texts := by
  induction f with
  | nil => rfl
  | text value rest ih => simp [ih]
  | leaf name attributes rest ih => simp [ih]
  | node name attributes children rest _ ih => simp [ih]

@[simp] theorem Forest.roots_append (f g : Forest) :
    (f.append g).roots = f.roots ++ g.roots := by
  induction f with
  | nil => rfl
  | text value rest ih => simp [ih]
  | leaf name attributes rest ih => simp [ih]
  | node name attributes children rest _ ih => simp [ih]

@[simp] theorem Forest.depth_append (f g : Forest) :
    (f.append g).depth = max f.depth g.depth := by
  induction f with
  | nil => simp
  | text value rest ih => simp [ih]
  | leaf name attributes rest ih => simp [ih, max_assoc]
  | node name attributes children rest _ ih => simp [ih, max_assoc]

/-! ## Drafts -/

/-- An open element with its contents so far. -/
structure Frame where
  name : String
  attributes : Attributes
  content : Forest

/-- What has been read: the closed part of the document, the open elements with
the innermost first, and the start tag that is being read. -/
structure Draft where
  closed : Forest
  frames : List Frame
  tag : Option (String × Attributes)

/-- What the open elements contribute, the outermost first. -/
def gather {α : Type} (ofFrame : Frame → List α) : List Frame → List α
  | [] => []
  | frame :: frames => gather ofFrame frames ++ ofFrame frame

attribute [simp] gather

/-- The tokens in front of the start tag that is being read. -/
def Draft.body (d : Draft) : List Token :=
  d.closed.tokens ++
    gather (fun f => tagTokens f.name f.attributes ++ .elementEnd .opened :: f.content.tokens)
      d.frames

/-- The tokens that have been read. -/
def Draft.tokens (d : Draft) : List Token :=
  d.body ++ d.tag.elim [] fun tag => tagTokens tag.1 tag.2

/-- The elements in front of the start tag that is being read. -/
def Draft.earlier (d : Draft) : List (String × Attributes) :=
  d.closed.elements ++ gather (fun f => (f.name, f.attributes) :: f.content.elements) d.frames

/-- The elements that have been read. -/
def Draft.elements (d : Draft) : List (String × Attributes) := d.earlier ++ d.tag.toList

/-- The texts that have been read. -/
def Draft.texts (d : Draft) : List String :=
  d.closed.texts ++ gather (fun f => f.content.texts) d.frames

/-- The names of the open elements, the innermost first. -/
def Draft.names (d : Draft) : List String :=
  (d.tag.map (·.1)).toList ++ d.frames.map (·.name)

/-- A forest behind what is closed in the innermost open element. -/
def Draft.push (d : Draft) (f : Forest) : Draft :=
  match d.frames with
  | [] => { d with closed := d.closed.append f, tag := none }
  | frame :: frames =>
    { d with frames := { frame with content := frame.content.append f } :: frames, tag := none }

@[simp] theorem Draft.push_tag (d : Draft) (f : Forest) : (d.push f).tag = none := by
  obtain ⟨closed, _ | ⟨frame, frames⟩, tag⟩ := d
  all_goals rfl

@[simp] theorem Draft.names_push (d : Draft) (f : Forest) :
    (d.push f).names = d.frames.map (·.name) := by
  obtain ⟨closed, _ | ⟨frame, frames⟩, tag⟩ := d
  all_goals rfl

@[simp] theorem Draft.tokens_push (d : Draft) (f : Forest) :
    (d.push f).tokens = d.body ++ f.tokens := by
  obtain ⟨closed, _ | ⟨frame, frames⟩, tag⟩ := d
  · simp [push, tokens, body]
  · simp [push, tokens, body]

@[simp] theorem Draft.elements_push (d : Draft) (f : Forest) :
    (d.push f).elements = d.earlier ++ f.elements := by
  obtain ⟨closed, _ | ⟨frame, frames⟩, tag⟩ := d
  · simp [push, elements, earlier]
  · simp [push, elements, earlier]

@[simp] theorem Draft.texts_push (d : Draft) (f : Forest) :
    (d.push f).texts = d.texts ++ f.texts := by
  obtain ⟨closed, _ | ⟨frame, frames⟩, tag⟩ := d
  · simp [push, texts]
  · simp [push, texts]

/-- The roots of the document, with the one that is still open. -/
def Draft.roots (d : Draft) : List String := d.closed.roots ++ d.names.getLast?.toList

/-- A forest with one root closes the outermost element when it is pushed behind
it, and no other forest has roots that matter. -/
theorem Draft.roots_push (d : Draft) (f : Forest) :
    (d.push f).roots =
      if d.frames = [] then d.closed.roots ++ f.roots
      else d.closed.roots ++ (d.frames.map (·.name)).getLast?.toList := by
  rw [roots, names_push]
  obtain ⟨closed, _ | ⟨frame, frames⟩, tag⟩ := d
  · simp [push]
  · simp [push]

/-- The contents of an open element, with the elements around it, stay within the
limit. -/
def DepthFits : List Frame → Prop
  | [] => True
  | frame :: frames => frame.content.depth + (frames.length + 1) ≤ 32 ∧ DepthFits frames

/-- No element stands deeper than the limit. -/
structure Draft.Shallow (d : Draft) : Prop where
  closed : d.closed.depth ≤ 32
  frames : DepthFits d.frames
  names : d.names.length ≤ 32

theorem Draft.Shallow.push {d : Draft} (h : d.Shallow) {f : Forest}
    (hdepth : f.depth + d.frames.length ≤ 32) : (d.push f).Shallow := by
  have hnames : (d.push f).names.length ≤ 32 := by
    rw [names_push, List.length_map]
    omega
  obtain ⟨closed, _ | ⟨frame, frames⟩, tag⟩ := d
  · refine ⟨?_, trivial, hnames⟩
    have hclosed := h.closed
    simp only [Draft.push, Forest.depth_append, List.length_nil] at hdepth hclosed ⊢
    omega
  · refine ⟨h.closed, ⟨?_, h.frames.2⟩, hnames⟩
    have hframe := h.frames.1
    simp only [Forest.depth_append, List.length_cons] at hdepth hframe ⊢
    omega

/-! ## What holds of a draft -/

/-- The element is on the allowlist, and so are its attributes, no two of one
name; their values are inert, but for the namespace of the root. -/
structure Allowed (element : String × Attributes) : Prop where
  name : element.1 ∈ allowedElements
  distinct : (element.2.map (·.1)).Nodup
  attributes : ∀ a ∈ element.2, Allowlisted element.1 a.1 ∧
    (element.1 = "svg" ∧ a.1 = "xmlns" ∧ a.2 = svgNamespace ∨ Inert a.2)

/-- The elements are within the limits, as they are counted, with one root as
soon as there is an element. -/
structure Counted (elements : List (String × Attributes)) (rootSeen : Bool)
    (elementCount attributeCount : ℕ) : Prop where
  single : (elements.map (·.1)).count "svg" = if rootSeen then 1 else 0
  length : elements.length = elementCount
  lengthLimit : elementCount ≤ 256
  total : (elements.map (·.2.length)).sum = attributeCount
  totalLimit : attributeCount ≤ 2048
  allowed : ∀ e ∈ elements, Allowed e

/-- The reader stands where the draft says, within its limits. -/
structure Draft.Fits (d : Draft) (r : Reader) : Prop where
  names : r.elements = d.names
  current : r.currentElement = d.tag.map (·.1)
  attributes : ∀ tag, d.tag = some tag → r.currentAttributes = tag.2.map (·.1)
  roots : d.roots = if r.rootSeen then ["svg"] else []
  counted : Counted d.elements r.rootSeen r.elementCount r.attributeCount
  blank : ∀ text ∈ d.texts, isBlank text = true
  shallow : d.Shallow

/-- Nothing has been read. -/
def Draft.blankSheet : Draft := ⟨.nil, [], none⟩

theorem fits_blankSheet : Draft.blankSheet.Fits {} where
  names := rfl
  current := rfl
  attributes := nofun
  roots := rfl
  counted := ⟨rfl, rfl, by decide, rfl, by decide, nofun⟩
  blank := nofun
  shallow := ⟨by decide, trivial, by decide⟩

/-! ## One token -/

variable {d : Draft} {r r' : Reader}

theorem Draft.names_settled (htag : d.tag = none) : d.names = d.frames.map (·.name) := by
  simp [names, htag]

theorem Draft.tokens_settled (htag : d.tag = none) : d.tokens = d.body := by
  simp [tokens, htag]

theorem Draft.elements_settled (htag : d.tag = none) : d.elements = d.earlier := by
  simp [elements, htag]

/-- A blank text. -/
theorem Draft.Fits.text (h : d.Fits r) (htag : d.tag = none) {value : String}
    (hblank : isBlank value = true) : (d.push (.text value .nil)).Fits r where
  names := by rw [names_push, ← names_settled htag, h.names]
  current := by rw [push_tag, h.current, htag]
  attributes := by
    rw [push_tag]
    nofun
  roots := by
    rw [roots_push, ← h.roots, Draft.roots, names_settled htag]
    by_cases hframes : d.frames = []
    · rw [if_pos hframes, hframes]
      rfl
    · rw [if_neg hframes]
  counted := by
    rw [elements_push, ← elements_settled htag]
    simpa using h.counted
  blank := by
    intro text htext
    rw [texts_push, List.mem_append] at htext
    rcases htext with hold | hnew
    · exact h.blank text hold
    · rw [List.mem_singleton.mp hnew]
      exact hblank
  shallow := by
    apply h.shallow.push
    have hnames := h.shallow.names
    rw [names_settled htag, List.length_map] at hnames
    simpa using hnames

/-- The name of a new element. -/
theorem Draft.Fits.start (h : d.Fits r) (htag : d.tag = none) {qualifier name : String}
    (hread : r.startElement qualifier name = .ok r') :
    qualifier = "" ∧ { d with tag := some (name, []) }.Fits r' := by
  unfold Reader.startElement at hread
  obtain ⟨_, hqualifier, hread⟩ := bind_eq_ok.mp hread
  obtain ⟨_, hname, hread⟩ := bind_eq_ok.mp hread
  obtain ⟨_, hposition, hread⟩ := bind_eq_ok.mp hread
  obtain ⟨_, hlimit, hread⟩ := bind_eq_ok.mp hread
  rw [ensure_eq_ok, decide_eq_true_eq] at hqualifier
  rw [ensure_eq_ok, List.contains_iff_mem] at hname
  rw [ensure_eq_ok, Bool.and_eq_true, decide_eq_true_eq, decide_eq_true_eq] at hlimit
  cases hread
  have hnames : r.elements = d.frames.map (·.name) := h.names.trans (names_settled htag)
  have hcounted := h.counted
  rw [elements_settled htag] at hcounted
  -- the first element is the root, and no later one is
  have hroots : d.closed.roots ++ ((name :: r.elements).getLast?).toList = ["svg"] ∧
      (d.earlier.map (·.1)).count "svg" + (if name = "svg" then 1 else 0) = 1 := by
    have hold := h.roots
    rw [Draft.roots, ← h.names] at hold
    unfold Reader.checkPosition at hposition
    rw [hcounted.single]
    by_cases hnone : r.elements = []
    · rw [if_pos hnone, ensure_eq_ok, Bool.and_eq_true, decide_eq_true_eq, Bool.not_eq_true']
        at hposition
      obtain ⟨hseen, rfl⟩ := hposition
      rw [hseen, hnone] at hold
      have hclosed : d.closed.roots = [] := by simpa using hold
      rw [hseen, hnone, hclosed]
      exact ⟨rfl, rfl⟩
    · rw [if_neg hnone, ensure_eq_ok, decide_eq_true_eq] at hposition
      obtain ⟨first, rest, hcons⟩ := List.exists_cons_of_ne_nil hnone
      rcases hseen : r.rootSeen
      · rw [hseen] at hold
        have hboth := List.append_eq_nil_iff.mp hold
        rw [Option.toList_eq_nil_iff, List.getLast?_eq_none_iff] at hboth
        exact absurd hboth.2 hnone
      · rw [hseen] at hold
        rw [hcons, List.getLast?_cons_cons, ← hcons, if_neg hposition]
        exact ⟨hold, rfl⟩
  refine ⟨hqualifier, ?_, rfl, ?_, ?_, ?_, h.blank, h.shallow.closed, h.shallow.frames, ?_⟩
  · show name :: r.elements = name :: d.frames.map (·.name)
    rw [hnames]
  · rintro tag heq
    cases heq
    rfl
  · show d.closed.roots ++ ((name :: d.frames.map (·.name)).getLast?).toList = ["svg"]
    rw [← hnames]
    exact hroots.1
  · show Counted (d.earlier ++ [(name, [])]) true _ _
    refine ⟨?_, ?_, hlimit.1, ?_, hcounted.totalLimit, ?_⟩
    · rw [List.map_append, List.count_append, if_pos rfl, ← hroots.2]
      simp [List.count_singleton]
    · rw [List.length_append, hcounted.length]
      rfl
    · rw [List.map_append, List.sum_append, hcounted.total]
      rfl
    · intro e he
      rcases List.mem_append.mp he with hold | hnew
      · exact hcounted.allowed e hold
      · rw [List.mem_singleton.mp hnew]
        exact ⟨hname, List.nodup_nil, nofun⟩
  · show (name :: d.frames.map (·.name)).length ≤ 32
    rw [List.length_cons, ← hnames]
    omega

/-- An attribute of the start tag. -/
theorem Draft.Fits.attribute (h : d.Fits r) {tag : String × Attributes} (htag : d.tag = some tag)
    {qualifier name value : String} (hread : r.readAttribute qualifier name value = .ok r') :
    qualifier = "" ∧ { d with tag := some (tag.1, tag.2 ++ [(name, value)]) }.Fits r' := by
  unfold Reader.readAttribute at hread
  obtain ⟨_, hqualifier, hread⟩ := bind_eq_ok.mp hread
  rw [ensure_eq_ok, decide_eq_true_eq] at hqualifier
  have hcurrent : r.currentElement = some tag.1 := by rw [h.current, htag]; rfl
  rw [hcurrent] at hread
  dsimp only at hread
  obtain ⟨_, hnew, hread⟩ := bind_eq_ok.mp hread
  obtain ⟨_, hlimit, hread⟩ := bind_eq_ok.mp hread
  obtain ⟨_, hvalid, hread⟩ := bind_eq_ok.mp hread
  rw [ensure_eq_ok, Bool.not_eq_true', h.attributes tag htag] at hnew
  rw [ensure_eq_ok, decide_eq_true_eq] at hlimit
  cases hread
  have hfresh : name ∉ tag.2.map (·.1) := by
    intro hmem
    rw [List.contains_iff_mem.mpr hmem] at hnew
    cases hnew
  have helements : d.elements = d.earlier ++ [tag] := by
    rw [Draft.elements, htag]
    rfl
  have hcounted := h.counted
  rw [helements] at hcounted
  have hallowed : Allowed tag := hcounted.allowed tag (by simp)
  have hnames : { d with tag := some (tag.1, tag.2 ++ [(name, value)]) }.names = d.names := by
    rw [Draft.names, Draft.names, htag]
    rfl
  refine ⟨hqualifier, ?_, ?_, ?_, ?_, ?_, h.blank, h.shallow.closed, h.shallow.frames, ?_⟩
  · rw [hnames]
    exact h.names
  · rfl
  · rintro tag' heq
    cases heq
    rw [h.attributes tag htag, List.map_append]
    rfl
  · rw [Draft.roots, hnames]
    exact h.roots
  · show Counted (d.earlier ++ [(tag.1, tag.2 ++ [(name, value)])]) _ _ _
    refine ⟨?_, ?_, hcounted.lengthLimit, ?_, hlimit, ?_⟩
    · rw [← hcounted.single, List.map_append, List.map_append]
      rfl
    · rw [← hcounted.length, List.length_append, List.length_append]
      rfl
    · rw [← hcounted.total]
      simp only [List.map_append, List.sum_append, List.map_cons, List.map_nil, List.sum_cons,
        List.sum_nil, List.length_append, List.length_singleton]
      omega
    · intro e he
      rcases List.mem_append.mp he with hold | hlast
      · exact hcounted.allowed e (List.mem_append_left _ hold)
      · rw [List.mem_singleton.mp hlast]
        refine ⟨hallowed.name, ?_, ?_⟩
        · rw [List.map_append]
          exact hallowed.distinct.append (List.nodup_singleton name)
            (List.disjoint_singleton.mpr hfresh)
        · intro a ha
          rcases List.mem_append.mp ha with hearlier | hlast
          · exact hallowed.attributes a hearlier
          · rw [List.mem_singleton.mp hlast]
            exact validateSvgAttribute_sound hvalid
  · rw [hnames]
    exact h.shallow.names

/-- The start tag of an element with contents ends. -/
theorem Draft.Fits.opened (h : d.Fits r) {tag : String × Attributes} (htag : d.tag = some tag) :
    (Draft.mk d.closed (⟨tag.1, tag.2, .nil⟩ :: d.frames) none).Fits
      { r with currentElement := none } := by
  have hnames : (Draft.mk d.closed (⟨tag.1, tag.2, .nil⟩ :: d.frames) none).names = d.names := by
    rw [Draft.names, Draft.names, htag]
    rfl
  have helements : (Draft.mk d.closed (⟨tag.1, tag.2, .nil⟩ :: d.frames) none).elements =
      d.elements := by
    simp [Draft.elements, Draft.earlier, htag]
  refine ⟨?_, rfl, nofun, ?_, ?_, ?_, h.shallow.closed, ⟨?_, h.shallow.frames⟩, ?_⟩
  · rw [hnames]
    exact h.names
  · rw [Draft.roots, hnames]
    exact h.roots
  · rw [helements]
    exact h.counted
  · simpa [Draft.texts] using h.blank
  · have hlength := h.shallow.names
    rw [Draft.names, htag] at hlength
    simp only [Option.map_some, Option.toList_some, List.length_append, List.length_map,
      List.length_singleton] at hlength
    show 0 + (d.frames.length + 1) ≤ 32
    omega
  · rw [hnames]
    exact h.shallow.names

/-- The closing of the innermost open element: its forest moves behind what is
closed around it. -/
theorem Draft.Fits.close (h : d.Fits r) (d' : Draft) (f : Forest) {name : String}
    (hclosed : d'.closed = d.closed) (hnames : d.names = name :: d'.frames.map (·.name))
    (helements : d'.earlier ++ f.elements = d.elements) (htexts : d'.texts ++ f.texts = d.texts)
    (hroots : f.roots = [name]) (hframes : DepthFits d'.frames)
    (hdepth : f.depth + d'.frames.length ≤ 32) :
    (d'.push f).Fits { r with elements := d'.frames.map (·.name), currentElement := none } := by
  have hshallow : { d' with tag := none }.Shallow := by
    refine ⟨?_, hframes, ?_⟩
    · show d'.closed.depth ≤ 32
      rw [hclosed]
      exact h.shallow.closed
    · have hlength := h.shallow.names
      rw [hnames, List.length_cons] at hlength
      rw [names_settled rfl]
      exact Nat.le_of_succ_le hlength
  refine ⟨(names_push d' f).symm, ?_, ?_, ?_, ?_, ?_, ?_⟩
  · rw [push_tag]
    rfl
  · rw [push_tag]
    nofun
  · show _ = if r.rootSeen then ["svg"] else []
    rw [roots_push, ← h.roots, Draft.roots, hnames, hclosed, hroots]
    by_cases hnone : d'.frames = []
    · rw [if_pos hnone, hnone]
      rfl
    · rw [if_neg hnone]
      obtain ⟨first, rest, hcons⟩ := List.exists_cons_of_ne_nil hnone
      rw [hcons, List.map_cons, List.getLast?_cons_cons]
  · rw [elements_push, helements]
    exact h.counted
  · rw [texts_push, htexts]
    exact h.blank
  · exact hshallow.push hdepth

/-- The end of an element without contents. -/
theorem Draft.Fits.leaf (h : d.Fits r) {tag : String × Attributes} (htag : d.tag = some tag)
    (hread : r.endElement .empty = .ok r') : (d.push (.leaf tag.1 tag.2 .nil)).Fits r' := by
  have hnames : d.names = tag.1 :: d.frames.map (·.name) := by
    rw [Draft.names, htag]
    rfl
  have hlength := h.shallow.names
  rw [hnames, List.length_cons, List.length_map] at hlength
  rw [Reader.endElement, h.names, hnames] at hread
  cases hread
  apply h.close d (.leaf tag.1 tag.2 .nil) rfl hnames
  · simp [Draft.elements, htag]
  · simp
  · rfl
  · exact h.shallow.frames
  · show max 1 0 + d.frames.length ≤ 32
    omega

/-- The end of an element with contents is that of the innermost one. -/
theorem Draft.Fits.node (h : d.Fits r) (htag : d.tag = none) {qualifier name : String}
    (hread : r.endElement (.close qualifier name) = .ok r') :
    ∃ frame frames, d.frames = frame :: frames ∧ qualifier = "" ∧ name = frame.name ∧
      ((Draft.mk d.closed frames none).push
        (.node frame.name frame.attributes frame.content .nil)).Fits r' := by
  have hnames := h.names.trans (names_settled htag)
  rcases hframes : d.frames with _ | ⟨frame, frames⟩
  · rw [Reader.endElement, hnames, hframes] at hread
    cases hread
  · rw [Reader.endElement, hnames, hframes, List.map_cons] at hread
    rcases ite_eq_iff.mp hread with ⟨-, hnone⟩ | ⟨hsame, hend⟩
    · cases hnone
    · rw [Bool.or_eq_true, not_or, decide_eq_true_eq, decide_eq_true_eq, not_not, not_not]
        at hsame
      cases hend
      have hdepth := h.shallow.frames
      rw [hframes] at hdepth
      refine ⟨frame, frames, rfl, hsame.1, hsame.2.symm, ?_⟩
      apply h.close ⟨d.closed, frames, none⟩ (.node frame.name frame.attributes frame.content .nil)
      · rfl
      · rw [names_settled htag, hframes]
        rfl
      · simp [Draft.elements, Draft.earlier, htag, hframes]
      · simp [Draft.texts, hframes]
      · rfl
      · exact hdepth.2
      · have hframe := hdepth.1
        show max (frame.content.depth + 1) 0 + frames.length ≤ 32
        omega

/-! ## The whole stream -/

/-- A token in the order of a document takes a draft to the next one. -/
theorem Draft.Fits.step (h : d.Fits r) {token : Token} {rest : List Yielded}
    (hlexed : lexedFrom d.tag.isSome (some token :: rest) = true) (hread : r.read token = .ok r') :
    ∃ d' : Draft, d'.Fits r' ∧ d'.tokens = d.tokens ++ [token] ∧
      lexedFrom d'.tag.isSome rest = true := by
  rcases token with ⟨version, encoding⟩ | _ | _ | _ | _ | _ | _ | ⟨qualifier, name⟩ |
    ⟨qualifier, name, value⟩ | ending | value | _
  · cases hlexed
  · cases hread
  · cases hread
  · cases hread
  · cases hread
  · cases hread
  · cases hread
  · -- the start of an element
    rw [lexedFrom, Bool.and_eq_true, Bool.not_eq_true', Option.isSome_eq_false_iff,
      Option.isNone_iff_eq_none] at hlexed
    obtain ⟨rfl, hfits⟩ := h.start hlexed.1 hread
    refine ⟨_, hfits, ?_, hlexed.2⟩
    rw [tokens_settled hlexed.1]
    rfl
  · rw [lexedFrom, Bool.and_eq_true] at hlexed
    obtain ⟨tag, htag⟩ := Option.isSome_iff_exists.mp hlexed.1
    obtain ⟨rfl, hfits⟩ := h.attribute htag hread
    refine ⟨_, hfits, ?_, hlexed.2⟩
    simp [Draft.tokens, Draft.body, htag, tagTokens]
  · rcases ending with _ | _ | ⟨qualifier, name⟩
    · rw [lexedFrom, Bool.and_eq_true] at hlexed
      obtain ⟨tag, htag⟩ := Option.isSome_iff_exists.mp hlexed.1
      cases hread
      refine ⟨_, h.opened htag, ?_, hlexed.2⟩
      simp [Draft.tokens, Draft.body, htag]
    · rw [lexedFrom, Bool.and_eq_true] at hlexed
      obtain ⟨tag, htag⟩ := Option.isSome_iff_exists.mp hlexed.1
      refine ⟨_, h.leaf htag hread, ?_, ?_⟩
      · rw [tokens_push, Draft.tokens, htag]
        simp
      · rw [push_tag]
        exact hlexed.2
    · change (! d.tag.isSome && lexedFrom false rest) = true at hlexed
      rw [Bool.and_eq_true, Bool.not_eq_true', Option.isSome_eq_false_iff,
        Option.isNone_iff_eq_none] at hlexed
      obtain ⟨frame, frames, hframes, rfl, rfl, hfits⟩ := h.node hlexed.1 hread
      refine ⟨_, hfits, ?_, ?_⟩
      · rw [tokens_push]
        simp [Draft.tokens, Draft.body, hlexed.1, hframes]
      · rw [push_tag]
        exact hlexed.2
  · change (! d.tag.isSome && lexedFrom false rest) = true at hlexed
    rw [Bool.and_eq_true, Bool.not_eq_true', Option.isSome_eq_false_iff,
      Option.isNone_iff_eq_none] at hlexed
    rcases ite_eq_iff.mp hread with ⟨hblank, hread⟩ | ⟨-, hread⟩
    · cases hread
      refine ⟨_, h.text hlexed.1 hblank, ?_, ?_⟩
      · rw [tokens_push, tokens_settled hlexed.1]
        rfl
      · rw [push_tag]
        exact hlexed.2
    · cases hread
  · cases hread

/-- A stream that is read to its end consists of tokens, and these take a draft
to one for the reader at the end. -/
theorem Draft.Fits.run {stream : List Yielded} (h : d.Fits r)
    (hlexed : lexedFrom d.tag.isSome stream = true) (hread : r.readAll stream = .ok r') :
    ∃ (tokens : List Token) (d' : Draft), stream = tokens.map some ∧ d'.Fits r' ∧
      d'.tokens = d.tokens ++ tokens := by
  induction stream generalizing d r with
  | nil =>
    cases hread
    exact ⟨[], d, rfl, h, (List.append_nil _).symm⟩
  | cons yielded rest ih =>
    rcases yielded with _ | token
    · cases hread
    · obtain ⟨r₁, hfirst, hrest⟩ := bind_eq_ok.mp hread
      obtain ⟨d₁, h₁, htokens₁, hlexed₁⟩ := h.step hlexed hfirst
      obtain ⟨tokens, d', rfl, h', htokens⟩ := ih h₁ hlexed₁ hrest
      refine ⟨token :: tokens, d', rfl, h', ?_⟩
      rw [htokens, htokens₁, List.append_assoc]
      rfl

/-! ## Accepted icons -/

/-- **The document of an icon.**  One root, which is the only `svg`; every
element, attribute and value is allowed; the limits are kept, and there is no
text but blanks. -/
structure Forest.Icon (f : Forest) : Prop where
  roots : f.roots = ["svg"]
  single : (f.elements.map (·.1)).count "svg" = 1
  allowed : ∀ e ∈ f.elements, Allowed e
  blank : ∀ text ∈ f.texts, isBlank text = true
  depth : f.depth ≤ 32
  size : f.elements.length ≤ 256
  attributes : (f.elements.map (·.2.length)).sum ≤ 2048

/-- Nothing, or a declaration of version 1.0 and of no encoding but UTF-8. -/
def IsProlog (head : List Token) : Prop :=
  head = [] ∨ ∃ encoding : Option String, head = [.declaration "1.0" encoding] ∧
    ∀ name, encoding = some name → eqIgnoreAsciiCase name "utf-8" = true

/-- A document that is complete at the end is an icon. -/
theorem Draft.Fits.icon (h : d.Fits r) (hroot : r.rootSeen = true) (hclosed : r.elements = []) :
    d.tokens = d.closed.tokens ∧ d.closed.Icon := by
  have hnames := h.names
  rw [hclosed, Draft.names] at hnames
  obtain ⟨htag, hframes⟩ := List.append_eq_nil_iff.mp hnames.symm
  rw [Option.toList_eq_nil_iff, Option.map_eq_none_iff] at htag
  rw [List.map_eq_nil_iff] at hframes
  have helements : d.elements = d.closed.elements := by
    simp [Draft.elements, Draft.earlier, htag, hframes]
  have htexts : d.texts = d.closed.texts := by simp [Draft.texts, hframes]
  have hcounted := h.counted
  have hblank := h.blank
  have hroots := h.roots
  rw [helements, hroot] at hcounted
  rw [htexts] at hblank
  rw [Draft.roots, Draft.names, htag, hframes, hroot] at hroots
  refine ⟨?_, ?_, hcounted.single, hcounted.allowed, hblank, h.shallow.closed, ?_, ?_⟩
  · simp [Draft.tokens, Draft.body, htag, hframes]
  · simpa using hroots
  · rw [hcounted.length]
    exact hcounted.lengthLimit
  · rw [hcounted.total]
    exact hcounted.totalLimit

/-- **Accepted icons are sanitized.**  When `validated_category_svg_metadata`
accepts a document whose tokens come in the order of a document, they spell an
optional declaration and one element tree rooted at the only `svg`, in which
elements, attributes and values are allowed and the limits are kept. -/
theorem accepted_icon (tokenizer : String → List Yielded)
    (hlexed : ∀ source, Lexed (tokenizer source) = true) (bytes : ByteArray) (metadata : Metadata)
    (h : validatedCategorySvgMetadata tokenizer bytes = .ok metadata) :
    ∃ (source : String) (head : List Token) (f : Forest), String.fromUTF8? bytes = some source ∧
      tokenizer source = (head ++ f.tokens).map some ∧ IsProlog head ∧ f.Icon := by
  unfold validatedCategorySvgMetadata at h
  split at h
  · cases h
  · rename_i source hsource
    obtain ⟨r, hread, hend⟩ := bind_eq_ok.mp h
    rcases ite_eq_iff.mp hend with ⟨-, hnone⟩ | ⟨hcomplete, -⟩
    · cases hnone
    · simp only [Bool.or_eq_true, not_or, Bool.not_eq_true, Bool.not_eq_false',
        decide_eq_false_iff_not, not_not] at hcomplete
      obtain ⟨⟨⟨hroot, -⟩, -⟩, hclosed⟩ := hcomplete
      have hstream := hlexed source
      have hfinish {stream : List Yielded} (hbody : lexedFrom false stream = true)
          (hall : ({} : Reader).readAll stream = .ok r) :
          ∃ f : Forest, stream = f.tokens.map some ∧ f.Icon := by
        obtain ⟨tokens, d, rfl, hfits, htokens⟩ := fits_blankSheet.run hbody hall
        obtain ⟨hclosedTokens, hicon⟩ := hfits.icon hroot hclosed
        refine ⟨d.closed, ?_, hicon⟩
        rw [← hclosedTokens, htokens]
        rfl
      unfold Lexed at hstream
      split at hstream
      · rename_i version encoding rest heq
        rw [heq] at hread
        obtain ⟨r₀, hdeclaration, hrest⟩ := bind_eq_ok.mp hread
        rcases ite_eq_iff.mp hdeclaration with ⟨-, hnone⟩ | ⟨hvalid, hsame⟩
        · cases hnone
        · cases hsame
          obtain ⟨f, rfl, hicon⟩ := hfinish hstream hrest
          rw [Bool.or_eq_true, not_or, decide_eq_true_eq, not_not] at hvalid
          refine ⟨source, [.declaration version encoding], f, hsource, heq, .inr ?_, hicon⟩
          refine ⟨encoding, by rw [hvalid.1], ?_⟩
          rintro name rfl
          simpa using hvalid.2
      · obtain ⟨f, heq, hicon⟩ := hfinish hstream hread
        exact ⟨source, [], f, hsource, heq, .inl rfl, hicon⟩

/-- A square icon with one circle. -/
def circleSource : String :=
  "<svg xmlns=\"http://www.w3.org/2000/svg\" viewBox=\"0 0 24 24\"><circle r=\"9\"/></svg>"

/-- The tokens of the icon. -/
def circleTokens : List Token :=
  [.elementStart "" "svg", .attribute "" "xmlns" "http://www.w3.org/2000/svg",
    .attribute "" "viewBox" "0 0 24 24", .elementEnd .opened, .elementStart "" "circle",
    .attribute "" "r" "9", .elementEnd .empty, .elementEnd (.close "" "svg")]

/-- The tokenizer on the icon, and an error on everything else. -/
def circleTokenizer (source : String) : List Yielded :=
  if source = circleSource then circleTokens.map some else [none]

theorem circleTokenizer_lexed (source : String) : Lexed (circleTokenizer source) = true := by
  unfold circleTokenizer
  by_cases h : source = circleSource
  · rw [if_pos h]
    decide
  · rw [if_neg h]
    decide

/-- The metadata of every accepted icon. -/
def svgMetadata : Metadata := ⟨"svg", 128, 128, false, true⟩

theorem circle_decoded : String.fromUTF8? circleSource.toUTF8 = some circleSource :=
  dif_pos circleSource.isValidUTF8

theorem circle_accepted :
    validatedCategorySvgMetadata circleTokenizer circleSource.toUTF8 = .ok svgMetadata := by
  unfold validatedCategorySvgMetadata
  rw [circle_decoded]
  decide +kernel

/-- The icon with the circle is accepted, and is an icon. -/
theorem accepted_icon_circle :
    ∃ (source : String) (head : List Token) (f : Forest),
      String.fromUTF8? circleSource.toUTF8 = some source ∧
      circleTokenizer source = (head ++ f.tokens).map some ∧ IsProlog head ∧ f.Icon :=
  accepted_icon circleTokenizer circleTokenizer_lexed circleSource.toUTF8 svgMetadata
    circle_accepted

/-- An accepted icon has a URL among its values: its namespace. -/
theorem namespace_is_url :
    ¬ ∀ (tokenizer : String → List Yielded) (bytes : ByteArray) (metadata : Metadata),
      (∀ source, Lexed (tokenizer source) = true) →
      validatedCategorySvgMetadata tokenizer bytes = .ok metadata →
      ∀ source qualifier name value, String.fromUTF8? bytes = some source →
        some (.attribute qualifier name value) ∈ tokenizer source →
        ¬ ['h', 't', 't', 'p', ':', '/', '/'] <:+: value.toList := by
  intro h
  apply h circleTokenizer circleSource.toUTF8 svgMetadata circleTokenizer_lexed circle_accepted
    circleSource "" "xmlns" "http://www.w3.org/2000/svg" circle_decoded
  · rw [circleTokenizer, if_pos rfl]
    decide
  · exact ⟨[], "www.w3.org/2000/svg".toList, by decide +kernel⟩

end CtfZone.CategorySvg
