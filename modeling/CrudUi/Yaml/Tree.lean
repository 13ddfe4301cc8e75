import CrudUi.Entries
import CrudUi.Yaml.Node
import CrudUi.Yaml.Token.Layout

/-!
# From tokens to the tree of a document

The tree is built token by token.  A `Frame` is a list or a table that is still open, and says
what may come next in it; a node that is wanted and does not come is an empty text.  A text holds at
most one document.
-/

namespace CrudUi.Yaml

/-- How a list is written: with dashes in a block of its own, with dashes at the column of the
table around it, or in brackets. -/
inductive ListStyle where
  | block
  | indentless
  | flow
  deriving DecidableEq

/-- How a table is written: in a block, in braces, or as a single entry within brackets. -/
inductive TableStyle where
  | block
  | flow
  | pair
  deriving DecidableEq

/-- What comes next in a table. -/
inductive Place where
  /-- An entry, or the end. -/
  | between
  /-- In braces, an entry whose key may stand without a sign in front. -/
  | bare (props : Props)
  | key (props : Props)
  /-- The value behind a key, or the next entry. -/
  | keyed (key : Node)
  | value (key : Node) (props : Props)

/-- A part of a document that is still open.  Items and entries are reversed. -/
inductive Frame where
  | document (wanted : Option Props) (root : Option Node)
  | list (style : ListStyle) (props : Props) (items : List Node) (wanted : Option Props)
  | table (style : TableStyle) (props : Props) (entries : List (Node × Node)) (place : Place)

namespace Frame

/-- What already stands in front of the node that is wanted; none if no node is. -/
def wanted? : Frame → Option Props
  | .document wanted _ => wanted
  | .list _ _ _ wanted => wanted
  | .table _ _ _ place => match place with
    | .bare props | .key props | .value _ props => some props
    | .between | .keyed _ => none

/-- Notes what stands in front of the node that is wanted. -/
def withProps (props : Props) : Frame → Frame
  | .document _ root => .document (some props) root
  | .list style outer items _ => .list style outer items (some props)
  | .table style outer entries place => .table style outer entries <| match place with
    | .bare _ => .bare props
    | .key _ => .key props
    | .value key _ => .value key props
    | place => place

/-- Puts a node where one is wanted. -/
def put? (node : Node) : Frame → Option Frame
  | .document (some _) _ => some (.document none (some node))
  | .list style props items (some _) => some (.list style props (node :: items) none)
  | .table style props entries (.bare _) =>
    some (.table style props ((node, .empty {}) :: entries) .between)
  | .table style props entries (.key _) => some (.table style props entries (.keyed node))
  | .table style props entries (.value key _) =>
    some (.table style props ((key, node) :: entries) .between)
  | _ => none

/-- Puts an empty text where a node is wanted. -/
def fill (frame : Frame) : Frame :=
  match frame.wanted? with
  | some props => (frame.put? (.empty props)).getD frame
  | none => frame

/-- Ends an entry of which only the key is there. -/
def endEntry : Frame → Frame
  | .table style props entries (.keyed key) =>
    .table style props ((key, .empty {}) :: entries) .between
  | frame => frame

/-- The node of a frame. -/
def toNode (complete : Bool) : Frame → Node
  | .document _ root => root.getD .broken
  | .list _ props items _ => .list props items.reverse complete
  | .table _ props entries _ => .table props entries.reverse complete

/-- Whether a single entry within brackets is there. -/
def isFullPair : Frame → Bool
  | .table .pair _ _ .between => true
  | _ => false

/-- Puts a node into the innermost frame; a single entry within brackets is full then. -/
def put (node : Node) : List Frame → Option (List Frame)
  | [] => none
  | frame :: outer => do
    let frame ← frame.put? node
    if frame.isFullPair then put (frame.toNode true) outer else return frame :: outer

/-- Ends the innermost frame. -/
def close : List Frame → Option (List Frame)
  | [] => none
  | frame :: outer => put (frame.toNode true) outer

/-- The root of a document that breaks off in the innermost of some frames. -/
def breakOff (node : Node) : List Frame → Node
  | [] => node
  | frame :: outer => breakOff (((frame.put? node).getD frame).toNode false) outer

/-- Opens a frame where a node is wanted. -/
def enter (frames : List Frame) (inner : Props → Frame) : Option (List Frame) := do
  return inner (← (← frames.head?).wanted?) :: frames

/-! ### Signs -/

/-- A sign within a list in brackets. -/
def stepFlowList (token : Token) (frames : List Frame) : Option (List Frame) :=
  match frames with
  | .list .flow props items wanted :: outer =>
    let missing := wanted = some {}
    let filled := (Frame.list .flow props items wanted).fill
    match token with
    | .comma => if missing then none else some (filled.withProps {} :: outer)
    | .closeBracket => if missing then close frames else close (filled :: outer)
    | .key => if missing then some (.table .pair {} [] (.key {}) :: frames) else none
    | _ => none
  | _ => none

/-- A sign within a single entry in brackets.  Where its key is missing, the sign that stands in
the place is passed over. -/
def stepPair (token : Token) (props : Props) (entries : List (Node × Node)) (place : Place)
    (outer : List Frame) : Option (List Frame) :=
  let keyed (key : Node) : Option (List Frame) :=
    match token with
    | .value => some (.table .pair props entries (.value key {}) :: outer)
    | _ => (put (.table props [(key, .empty {})] true) outer).bind (stepFlowList token)
  match place with
  | .key inner =>
    if !inner.isEmpty then keyed (.empty inner)
    else if token = .value || token = .comma || token = .closeBracket then
      some (.table .pair props entries (.keyed (.empty {})) :: outer)
    else none
  | .keyed key => keyed key
  | .value key inner =>
    (put (.table props [(key, .empty inner)] true) outer).bind (stepFlowList token)
  | .between | .bare _ => none

/-- A sign within a table in a block. -/
def stepBlockTable (token : Token) (frames : List Frame) : Option (List Frame) :=
  match frames with
  | .table .block props entries place :: outer =>
    let ended := (Frame.table .block props entries place).fill.endEntry
    match token, place with
    | .key, _ => match ended with
      | .table style props entries _ => some (.table style props entries (.key {}) :: outer)
      | _ => none
    | .value, .key inner =>
      some (.table .block props entries (.value (.empty inner) {}) :: outer)
    | .value, .keyed key => some (.table .block props entries (.value key {}) :: outer)
    | .blockEnd, _ => close (ended :: outer)
    | .item, .key inner | .item, .value _ inner =>
      some (.list .indentless inner [] (some {}) :: frames)
    | _, _ => none
  | _ => none

/-- A sign within a table in braces. -/
def stepFlowTable (token : Token) (props : Props) (entries : List (Node × Node)) (place : Place)
    (outer : List Frame) : Option (List Frame) :=
  let missing := match place with
    | .bare inner => inner.isEmpty
    | _ => false
  let frame := Frame.table .flow props entries place
  let ended := if missing then frame else frame.fill.endEntry
  match token, place with
  | .key, .bare inner =>
    if inner.isEmpty then some (.table .flow props entries (.key {}) :: outer) else none
  | .value, .key inner => some (.table .flow props entries (.value (.empty inner) {}) :: outer)
  | .value, .keyed key => some (.table .flow props entries (.value key {}) :: outer)
  | .comma, _ => match ended with
    | .table style props entries .between => some (.table style props entries (.bare {}) :: outer)
    | _ => none
  | .closeBrace, _ => close (ended :: outer)
  | _, _ => none

/-- A sign between the nodes of a document. -/
def stepSign (token : Token) (frames : List Frame) : Option (List Frame) :=
  match frames with
  | .list .block props items wanted :: outer =>
    let filled := (Frame.list .block props items wanted).fill
    match token with
    | .item => some (filled.withProps {} :: outer)
    | .blockEnd => close (filled :: outer)
    | _ => none
  | .list .indentless props items wanted :: outer =>
    let filled := (Frame.list .indentless props items wanted).fill
    match token with
    | .item => some (filled.withProps {} :: outer)
    | _ => (close (filled :: outer)).bind (stepBlockTable token)
  | .list .flow _ _ _ :: _ => stepFlowList token frames
  | .table .block _ _ _ :: _ => stepBlockTable token frames
  | .table .flow props entries place :: outer => stepFlowTable token props entries place outer
  | .table .pair props entries place :: outer => stepPair token props entries place outer
  | _ => none

end Frame

/-! ### Documents -/

/-- How far a text has come. -/
inductive Stage where
  | start
  /-- Behind a directive. -/
  | directives
  /-- In the document, which may or may not have been started by a mark. -/
  | content (explicit : Bool)
  /-- Behind the document. -/
  | ended
  /-- Behind the text. -/
  | finished
  deriving DecidableEq

/-- The tree of a document as far as it has been built. -/
structure Builder where
  stage : Stage := .start
  frames : List Frame := [.document (some {}) none]
  /-- The numbers of the anchors by their names. -/
  anchors : Entries Nat := []
  hasVersion : Bool := false
  /-- What the handles of tags are short for. -/
  handles : List (String × String) := []

namespace Builder

/-- The handles that need no directive. -/
def commonHandles : List (String × String) :=
  [("!", "!"), ("!!", "tag:yaml.org,2002:")]

/-- The tag of a handle and a suffix. -/
def resolveTag (builder : Builder) (handle suffix : String) : Option String :=
  if handle = "" then some suffix
  else ((builder.handles ++ commonHandles).lookup handle).map (· ++ suffix)

/-- Reads a directive. -/
def directive (builder : Builder) : Token → Option Builder
  | .version major minor =>
    if !builder.hasVersion && major = 1 && (minor = 1 || minor = 2) then
      some { builder with stage := .directives, hasVersion := true }
    else none
  | .tagDirective handle stem =>
    if (builder.handles.lookup handle).isNone then
      some { builder with
        stage := .directives, handles := (handle, stem) :: builder.handles }
    else none
  | _ => none

/-- Notes something in front of the node that is wanted. -/
def note (builder : Builder) (update : Props → Option Props) : Option Builder := do
  match builder.frames with
  | frame :: outer =>
    let props ← update (← frame.wanted?)
    return { builder with frames := frame.withProps props :: outer }
  | [] => none

/-- Puts a text where a node is wanted.  A tag that is only an exclamation mark says nothing about
it. -/
def putScalar (builder : Builder) (plain : Bool) (text : String) : Option Builder := do
  let props ← (← builder.frames.head?).wanted?
  let props := if props.tag = some "!" then { props with tag := none } else props
  return { builder with frames := ← Frame.put (.scalar props plain text) builder.frames }

/-- Puts an alias where a node is wanted. -/
def putAlias (builder : Builder) (name : String) : Option Builder := do
  let props ← (← builder.frames.head?).wanted?
  if !props.isEmpty then none
  else
    let number ← builder.anchors.lookup name
    return { builder with frames := ← Frame.put (.alias number) builder.frames }

/-- Gives an anchor the number of names that are known so far. -/
def putAnchor (builder : Builder) (name : String) : Option Builder := do
  let number := builder.anchors.length
  let builder ← builder.note fun props =>
    if props.anchor.isSome then none else some { props with anchor := some number }
  return { builder with anchors := builder.anchors.insert name number }

/-- Reads a token within the document. -/
def content (builder : Builder) (token : Token) : Option Builder :=
  let frames (next : Option (List Frame)) : Option Builder :=
    next.map fun frames => { builder with frames }
  match token with
  | .anchor name => builder.putAnchor name
  | .alias name => builder.putAlias name
  | .tag handle suffix => do
    let tag ← builder.resolveTag handle suffix
    builder.note fun props => if props.tag.isSome then none else some { props with tag := some tag }
  | .scalar plain text => builder.putScalar plain text
  | .blockListStart => frames (Frame.enter builder.frames fun props => .list .block props [] none)
  | .blockTableStart =>
    frames (Frame.enter builder.frames fun props => .table .block props [] .between)
  | .openBracket => frames (Frame.enter builder.frames fun props => .list .flow props [] (some {}))
  | .openBrace =>
    frames (Frame.enter builder.frames fun props => .table .flow props [] (.bare {}))
  | token => frames (Frame.stepSign token builder.frames)

/-- Reads a token behind the document. -/
def behind (builder : Builder) : Token → Option Builder
  | .documentEnd => some { builder with stage := .ended }
  | .streamEnd => some { builder with stage := .finished }
  | _ => none

/-- Whether a token stands outside of documents. -/
def isBoundary : Token → Bool
  | .streamEnd | .documentStart | .documentEnd | .version _ _ | .tagDirective _ _ => true
  | _ => false

/-- Reads a token within the document or at its end. -/
def inside (builder : Builder) (explicit : Bool) (token : Token) : Option Builder :=
  if isBoundary token then
    match builder.frames with
    | [.document none _] => builder.behind token
    | [.document (some props) _] =>
      if explicit || !props.isEmpty then
        { builder with frames := [.document none (some (.empty props))] }.behind token
      else none
    | _ => none
  else builder.content token

/-- Reads a token. -/
def step (builder : Builder) (token : Token) : Option Builder :=
  match builder.stage, token with
  | .start, .version _ _ | .start, .tagDirective _ _
  | .directives, .version _ _ | .directives, .tagDirective _ _ => builder.directive token
  | .start, .documentStart | .directives, .documentStart =>
    some { builder with stage := .content true }
  | .start, .streamEnd =>
    some { builder with stage := .finished, frames := [.document none (some (.empty {}))] }
  | .start, _ => { builder with stage := .content false }.inside false token
  | .directives, _ => none
  | .content explicit, _ => builder.inside explicit token
  | .ended, _ => builder.behind token
  | .finished, _ => none

/-- Reads tokens up to the first that does not fit. -/
def run (builder : Builder) : List Token → Builder
  | [] => builder
  | token :: rest => match builder.step token with
    | some next => next.run rest
    | none => builder

end Builder

/-- The tree of a document. -/
structure Tree where
  root : Node
  /-- Whether the text holds nothing but the document. -/
  complete : Bool

/-- The tree of a text. -/
def Tree.ofText (text : String) : Tree :=
  let builder := ({} : Builder).run (Token.ofText text)
  ⟨Frame.breakOff .broken builder.frames, builder.stage = .finished⟩

end CrudUi.Yaml
