import HeadFinder.Markup.Namespace
import HeadFinder.Markup.Tag

/-! # Reading elements

A document is read by a machine.  Its state holds the texts that are being read
(the document, and inside it the entities referred to) and the elements that are
open.  Each step reads one piece of markup or one run of text; a piece that is
not well formed stops the machine.
-/
namespace HeadFinder.Markup

/-- An open element: its name as written and in full, its attributes, the runs
of text before its first child, the children so far, and the namespaces in force
inside it.  Runs and children are kept with the last first. -/
structure Frame where
  written : RawName
  name : QualifiedName
  attributes : List (QualifiedName × String)
  runs : List (List Char)
  children : List Element
  spaces : Spaces

/-- A text that is being read: the entity it comes from, what is left, how many
elements were open when it began, and where the last reference to an entity in it
stands. -/
structure Reading where
  entity : List Char
  rest : List Char
  depth : Nat
  mark : List Char

/-- The state of the machine. -/
structure Reader where
  readings : List Reading
  frames : List Frame
  spent : Nat

/-- What a step leads to. -/
inductive Progress where
  | more (reader : Reader)
  | root (element : Element) (rest : List Char)

namespace Frame

/-- The element that a frame becomes when it is closed. -/
def close (frame : Frame) : Element :=
  .node frame.name frame.attributes (String.ofList frame.runs.reverse.flatten)
    frame.children.reverse

/-- Adds a run of text; behind a child it is not kept. -/
def addText (run : List Char) (frame : Frame) : Frame :=
  if frame.children.isEmpty then { frame with runs := run :: frame.runs } else frame

end Frame

namespace Reader

/-- Goes on after a piece of text in the innermost open element. -/
def withText (reader : Reader) (run rest : List Char) : Except Fault Progress :=
  match reader.readings, reader.frames with
  | reading :: readings, frame :: frames =>
    .ok <| .more { reader with
      readings := { reading with rest } :: readings
      frames := frame.addText run :: frames }
  | _, _ => .error ⟨.noElement, rest⟩

/-- Closes the innermost open element with a tag that begins at `start`. -/
def close (reader : Reader) (start rest : List Char) : Except Fault Progress :=
  match reader.readings, reader.frames with
  | reading :: readings, frame :: frames =>
    let element := frame.close
    match frames with
    | [] => .ok (.root element rest)
    | parent :: outer =>
      .ok <| .more { reader with
        readings := { reading with rest } :: readings
        frames := { parent with children := element :: parent.children } :: outer }
  | _, _ => .error ⟨.noElement, start⟩

/-- The names of a tag and the namespaces in force inside it. -/
def resolveTag (reader : Reader) (written : RawName) (all : List (RawName × List Char)) :
    Except Cause (QualifiedName × List (QualifiedName × String) × Spaces) := do
  let outer := (reader.frames.head?.map (·.spaces)).getD baseSpaces
  let spaces ← bindAll outer all
  let attributes ← (all.filter (·.1.declares?.isNone)).mapM fun (name, value) => do
    return (← name.resolve spaces false, String.ofList value)
  if !allDistinct (attributes.map Prod.fst) then throw .duplicateAttribute
  return (← written.resolve spaces true, attributes, spaces)

/-- Reads the start tag with which a text begins. -/
def openTag (declarations : Declarations) (allowance : Nat) (reader : Reader)
    (start : List Char) : Except Fault Progress := do
  let (written, raw, isEmpty, rest) ← (takeTag (start.drop 1)).asToken start
  let (given, spent) ←
    attributeValues declarations allowance start written [] reader.spent raw
  let all := given ++ defaultsFor declarations written given
  let (name, attributes, spaces) ←
    (reader.resolveTag written all).mapError fun cause => ⟨cause, start⟩
  let frame : Frame := ⟨written, name, attributes, [], [], spaces⟩
  match reader.readings with
  | [] => throw ⟨.noElement, start⟩
  | reading :: readings =>
    let opened : Reader := { reader with
      readings := { reading with rest } :: readings
      frames := frame :: reader.frames
      spent }
    if isEmpty then opened.close start rest else return .more opened

/-- What follows an end tag, read after its opening mark. -/
def endTag (cs : List Char) : Scan (List Char) := do
  discard (takeName cs)
  expect '>' (skipSpace (cs.dropWhile isTagChar))

/-- Reads the end tag with which a text begins.  Its name is only compared. -/
def closeTag (reader : Reader) (start : List Char) : Except Fault Progress := do
  let cs := start.drop 2
  let rest ← (endTag cs).asToken start
  let depth := (reader.readings.head?.map (·.depth)).getD 0
  if reader.frames.length ≤ depth then throw ⟨.asynchronousEntity, start⟩
  if reader.frames.head?.any (·.written.text = cs.takeWhile isTagChar) then
    reader.close start rest
  else throw ⟨.mismatchedTag, cs⟩

/-- Begins to read an entity, to which the reference at `start` refers. -/
def enter (declarations : Declarations) (allowance : Nat) (reader : Reader)
    (name start rest : List Char) : Except Fault Progress :=
  match reader.readings, declarations.entities.lookup name with
  | reading :: readings, some (.internal text) =>
    let spent := reader.spent + text.length
    if reader.readings.any (·.entity = name) then .error ⟨.recursiveEntity, start⟩
    else if allowance < spent then .error ⟨.amplified, start⟩
    else .ok <| .more { reader with
      readings :=
        ⟨name, text, reader.frames.length, []⟩ :: { reading with rest, mark := start } :: readings
      spent }
  | _, some .binary => .error ⟨.binaryEntity, start⟩
  | _, none =>
    .error ⟨if declarations.lenient then .absentEntity name else .undefinedEntity, start⟩
  | _, _ => .error ⟨.absentEntity name, start⟩

/-- A run of text up to the next markup or reference; the end of a section may not
stand in it. -/
def takeRun : List Char → List Char → Scan (List Char × List Char)
  | run, [] => .ok (run.reverse, [])
  | _, ']' :: ']' :: '>' :: rest => .error ('>' :: rest)
  | run, c :: rest =>
    if c = '<' || c = '&' then .ok (run.reverse, c :: rest)
    else if isChar c then takeRun (c :: run) rest
    else .error (c :: rest)

/-- A text from the point on where it differs from what is expected. -/
def afterShared : List Char → List Char → List Char
  | a :: as, b :: bs => if a = b then afterShared as bs else b :: bs
  | _, bs => bs

/-- Reads the section with which a text begins. -/
def takeCharacterData (reader : Reader) (start : List Char) : Except Fault Progress := do
  match after? "[CDATA[" (start.drop 2) with
  | some rest =>
    let (text, rest) ← takeSection [] rest
    reader.withText text rest
  | none =>
    let isCut := start.length < 9 && start[2]? = some '['
    throw (Fault.inToken start (if isCut then [] else afterShared "[CDATA[".toList (start.drop 2)))

/-- Reads the reference with which a text begins. -/
def refer (declarations : Declarations) (allowance : Nat) (reader : Reader)
    (start : List Char) : Except Fault Progress := do
  let (reference, rest) ← (takeReference (start.drop 1)).asToken start
  match reference.char?, reference with
  | some c, _ => reader.withText [c] rest
  | none, .number _ => throw ⟨.badCharacter, start⟩
  | none, .entity name => reader.enter declarations allowance name start rest

/-- One step on the text that is left of the innermost reading. -/
def read (declarations : Declarations) (allowance : Nat) (reader : Reader) (start : List Char) :
    Except Fault Progress :=
  match start with
  | '<' :: '/' :: _ => reader.closeTag start
  | '<' :: '?' :: _ => do reader.withText [] (← skipInstruction start)
  | '<' :: '!' :: '-' :: rest => do
    let rest ← (expect '-' rest).asToken start
    reader.withText [] (← (skipComment rest).asToken start)
  | '<' :: '!' :: _ => reader.takeCharacterData start
  | '<' :: _ => reader.openTag declarations allowance start
  | '&' :: _ => reader.refer declarations allowance start
  | _ => do
    let (run, rest) ← (takeRun [] start).asToken start
    reader.withText (normalizeLines run) rest

/-- A fault inside of an entity stands where the document refers to it. -/
def locate (reader : Reader) (fault : Fault) : Fault :=
  match reader.readings with
  | [] | [_] => fault
  | readings => { fault with rest := ((readings.getLast?).map (·.mark)).getD [] }

/-- One step. -/
def step (declarations : Declarations) (allowance : Nat) (reader : Reader) :
    Except Fault Progress :=
  match reader.readings with
  | [] => .error ⟨.noElement, []⟩
  | ⟨_, [], depth, _⟩ :: outer =>
    if outer.isEmpty then .error ⟨.noElement, []⟩
    else if reader.frames.length ≠ depth then .error (reader.locate ⟨.asynchronousEntity, []⟩)
    else .ok (.more { reader with readings := outer })
  | ⟨_, c :: rest, _, _⟩ :: _ =>
    (reader.read declarations allowance (c :: rest)).mapError reader.locate

/-- Steps until the root element is closed. -/
def run (declarations : Declarations) (allowance : Nat) : Nat → Reader →
    Except Fault (Element × List Char)
  | 0, _ => .error ⟨.amplified, []⟩
  | fuel + 1, reader =>
    match reader.step declarations allowance with
    | .error fault => .error fault
    | .ok (.root element rest) => .ok (element, rest)
    | .ok (.more reader) => run declarations allowance fuel reader

end Reader

end HeadFinder.Markup
