import HostedRepo.Yaml.Layout

/-!
# YAML texts as trees

The tree of a YAML document goes as far as the text is well formed: where reading has to stop, the
tree has a fault. An alias holds what the anchored node is, without what that node contains.
-/

namespace HostedRepo.Yaml

structure Scalar where
  text : String
  style : Style := .plain
  tag : Option String := none
  deriving DecidableEq, Repr

inductive Kind where
  | scalar (s : Scalar)
  | sequence
  | mapping
  deriving DecidableEq, Repr

/-- What a node is, and where it starts. -/
structure Head where
  kind : Kind
  mark : Mark
  deriving DecidableEq, Repr

inductive Node where
  | scalar (s : Scalar) (mark : Mark)
  /-- The items, and the fault behind the last one if the sequence does not end. -/
  | sequence (mark : Mark) (items : List Node) (stop : Option Fault)
  /-- The entries, and the fault behind the last one if the mapping does not end. -/
  | mapping (mark : Mark) (entries : List (Node × Node)) (stop : Option Fault)
  | alias (target : Head)
  | fault (f : Fault)

/-- What the nodes of a document are read from. -/
structure Source where
  fault : Option Fault
  stop : Mark
  /-- What the tag handles stand for. -/
  tags : List (String × String) := [("!", "!"), ("!!", "tag:yaml.org,2002:")]

/-- The tokens to be read and the anchors known so far, the newest first. -/
structure Rest where
  tokens : List Token
  anchors : List (String × Head) := []

/-- A tree and what follows it, unless reading stopped within it. -/
abbrev Step := Node × Option Rest

namespace Node

/-- The node of a text that is left out. -/
def empty (mark : Mark) : Node := .scalar ⟨"", .plain, none⟩ mark

end Node

namespace Rest

def drop (r : Rest) : Rest := { r with tokens := r.tokens.drop 1 }

def note (r : Rest) (anchor : Option String) (h : Head) : Rest :=
  match anchor with
  | none => r
  | some name => { r with anchors := (name, h) :: r.anchors }

end Rest

namespace Source

/-- The next token; at the end of the text there is none. -/
def peek (src : Source) (r : Rest) : Except Fault (Option Token) :=
  match r.tokens, src.fault with
  | t :: _, _ => .ok (some t)
  | [], some f => .error f
  | [], none => .ok none

/-- Where the next token starts. -/
def place (src : Source) (t : Option Token) : Mark :=
  match t with
  | none => src.stop
  | some t => t.start

def kindOf (t : Option Token) : Option TokenKind := t.map (·.kind)

/-- Whether the next token is one of some kinds. -/
def isOneOf (t : Option Token) (kinds : List TokenKind) : Bool :=
  match t with
  | none => false
  | some t => kinds.contains t.kind

/-- Anchor and tag in front of a node, in either order, and where they start. -/
structure Properties where
  start : Mark
  anchor : Option String := none
  tag : Option (String × String) := none

/-- Reads anchor and tag in front of a node. -/
def properties (src : Source) (r : Rest) : Except Fault (Properties × Rest) := do
  let first ← src.peek r
  let start := src.place first
  match kindOf first with
  | some (.anchor name) =>
    let r := r.drop
    match kindOf (← src.peek r) with
    | some (.tag h s) => return (⟨start, some name, some (h, s)⟩, r.drop)
    | _ => return (⟨start, some name, none⟩, r)
  | some (.tag h s) =>
    let r := r.drop
    match kindOf (← src.peek r) with
    | some (.anchor name) => return (⟨start, some name, some (h, s)⟩, r.drop)
    | _ => return (⟨start, none, some (h, s)⟩, r)
  | _ => return (⟨start, none, none⟩, r)

/-- The tag that handle and suffix stand for. -/
def resolveTag (src : Source) (p : Properties) : Except Fault (Option String) :=
  match p.tag with
  | none => .ok none
  | some ("", suffix) => .ok (some suffix)
  | some (handle, suffix) =>
    match src.tags.find? (·.1 = handle) with
    | none => .error ⟨.undefinedTag, p.start⟩
    | some (_, start) => .ok (some (start ++ suffix))

mutual

/-- Reads a node. In a block, block collections may start; an indentless sequence is one whose
entries stand under a key without being indented. -/
def readNode (src : Source) (block indentless : Bool) (fuel : Nat) (r : Rest) : Step :=
  match fuel with
  | 0 => (.fault ⟨.endOfText, src.stop⟩, none)
  | fuel + 1 =>
    match src.peek r with
    | .error f => (.fault f, none)
    | .ok (some ⟨.alias name, start, _⟩) =>
      match r.anchors.find? (·.1 = name) with
      | none => (.fault ⟨.unknownAnchor, start⟩, none)
      | some (_, target) => (.alias target, some r.drop)
    | .ok _ =>
      match (do
        let (p, r) ← src.properties r
        let tag ← src.resolveTag p
        return (p, tag, r, ← src.peek r)) with
      | .error f => (.fault f, none)
      | .ok (p, tag, r, next) =>
        let collection (k : Kind) : Rest := r.note p.anchor ⟨k, p.start⟩
        match kindOf next with
        | some (.scalar text style) =>
          let s : Scalar := ⟨text, style, tag⟩
          (.scalar s p.start, some (r.note p.anchor ⟨.scalar s, p.start⟩).drop)
        | some .openBracket =>
          let (items, stop, rest) := readFlowItems src true fuel (collection .sequence).drop
          (.sequence p.start items stop, rest)
        | some .openBrace =>
          let (entries, stop, rest) := readFlowEntries src true fuel (collection .mapping).drop
          (.mapping p.start entries stop, rest)
        | kind =>
          if indentless && kind == some .entry then
            let (items, stop, rest) := readItems src true fuel (collection .sequence)
            (.sequence p.start items stop, rest)
          else if block && kind == some .sequenceBlock then
            let (items, stop, rest) := readItems src false fuel (collection .sequence).drop
            (.sequence p.start items stop, rest)
          else if block && kind == some .mappingBlock then
            let (entries, stop, rest) := readEntries src fuel (collection .mapping).drop
            (.mapping p.start entries stop, rest)
          else if p.anchor.isSome || p.tag.isSome then
            let s : Scalar := ⟨"", .plain, tag⟩
            (.scalar s p.start, some (r.note p.anchor ⟨.scalar s, p.start⟩))
          else (.fault ⟨.noContent, src.place next⟩, none)

/-- Reads a node of a block unless a token that ends it comes first; then the node is empty. -/
def readBlockNode (src : Source) (ends : List TokenKind) (indentless : Bool) (mark : Mark)
    (fuel : Nat) (r : Rest) : Step :=
  match fuel with
  | 0 => (.fault ⟨.endOfText, src.stop⟩, none)
  | fuel + 1 =>
    match src.peek r with
    | .error f => (.fault f, none)
    | .ok t =>
      if isOneOf t ends then (Node.empty mark, some r)
      else readNode src true indentless fuel r

/-- Reads a node of a flow collection unless a token that ends it comes first. -/
def readFlowNode (src : Source) (ends : List TokenKind) (fuel : Nat) (r : Rest) : Step :=
  match fuel with
  | 0 => (.fault ⟨.endOfText, src.stop⟩, none)
  | fuel + 1 =>
    match src.peek r with
    | .error f => (.fault f, none)
    | .ok t =>
      if isOneOf t ends then (Node.empty (src.place t), some r)
      else readNode src false false fuel r

/-- Reads the entries of a block sequence. -/
def readItems (src : Source) (indentless : Bool) (fuel : Nat) (r : Rest) :
    List Node × Option Fault × Option Rest :=
  match fuel with
  | 0 => ([], some ⟨.endOfText, src.stop⟩, none)
  | fuel + 1 =>
    match src.peek r with
    | .error f => ([], some f, none)
    | .ok (some ⟨.entry, _, stop⟩) =>
      let ends := if indentless then [.entry, .key, .value, .blockEnd] else [.entry, .blockEnd]
      match readBlockNode src ends false stop fuel r.drop with
      | (item, none) => ([item], none, none)
      | (item, some r) =>
        let (items, fault, rest) := readItems src indentless fuel r
        (item :: items, fault, rest)
    | .ok t =>
      if indentless then ([], none, some r)
      else if isOneOf t [.blockEnd] then ([], none, some r.drop)
      else ([], some ⟨.noDash, src.place t⟩, none)

/-- Reads the entries of a block mapping. -/
def readEntries (src : Source) (fuel : Nat) (r : Rest) :
    List (Node × Node) × Option Fault × Option Rest :=
  match fuel with
  | 0 => ([], some ⟨.endOfText, src.stop⟩, none)
  | fuel + 1 =>
    let ends : List TokenKind := [.key, .value, .blockEnd]
    match src.peek r with
    | .error f => ([], some f, none)
    | .ok (some ⟨.key, _, stop⟩) =>
      match readBlockNode src ends true stop fuel r.drop with
      | (key, none) => ([(key, .fault ⟨.endOfText, src.stop⟩)], none, none)
      | (key, some r) =>
        let (value, rest) : Step := match src.peek r with
          | .error f => (.fault f, none)
          | .ok (some ⟨.value, _, stop⟩) => readBlockNode src ends true stop fuel r.drop
          | .ok t => (Node.empty (src.place t), some r)
        match rest with
        | none => ([(key, value)], none, none)
        | some r =>
          let (entries, fault, rest) := readEntries src fuel r
          ((key, value) :: entries, fault, rest)
    | .ok t =>
      if isOneOf t [.blockEnd] then ([], none, some r.drop)
      else ([], some ⟨.noKey, src.place t⟩, none)

/-- Reads the items of a flow sequence; `first` tells that no comma has to come before. A key in it
is a mapping with one entry. -/
def readFlowItems (src : Source) (first : Bool) (fuel : Nat) (r : Rest) :
    List Node × Option Fault × Option Rest :=
  match fuel with
  | 0 => ([], some ⟨.endOfText, src.stop⟩, none)
  | fuel + 1 =>
    match src.peek r with
    | .error f => ([], some f, none)
    | .ok t =>
      if isOneOf t [.closeBracket] then ([], none, some r.drop)
      else if !first && !isOneOf t [.comma] then ([], some ⟨.noCommaOrBracket, src.place t⟩, none)
      else
        let r := if first then r else r.drop
        match src.peek r with
        | .error f => ([], some f, none)
        | .ok t =>
          if isOneOf t [.closeBracket] then ([], none, some r.drop)
          else
            let (item, rest) : Step := match t with
              | some ⟨.key, start, _⟩ =>
                let (entry, rest) := readPair src fuel r.drop
                (.mapping start [entry] none, rest)
              | _ => readNode src false false fuel r
            match rest with
            | none => ([item], none, none)
            | some r =>
              let (items, fault, rest) := readFlowItems src false fuel r
              (item :: items, fault, rest)

/-- Reads key and value of a mapping with one entry. -/
def readPair (src : Source) (fuel : Nat) (r : Rest) : (Node × Node) × Option Rest :=
  match fuel with
  | 0 => ((.fault ⟨.endOfText, src.stop⟩, .fault ⟨.endOfText, src.stop⟩), none)
  | fuel + 1 =>
    let (key, rest) : Step := match src.peek r with
      | .error f => (.fault f, none)
      | .ok t =>
        if isOneOf t [.value, .comma, .closeBracket] then
          (Node.empty ((t.map (·.stop)).getD src.stop), some r.drop)
        else readNode src false false fuel r
    match rest with
    | none => ((key, .fault ⟨.endOfText, src.stop⟩), none)
    | some r =>
      let (value, rest) : Step := match src.peek r with
        | .error f => (.fault f, none)
        | .ok (some ⟨.value, _, _⟩) => readFlowNode src [.comma, .closeBracket] fuel r.drop
        | .ok t => (Node.empty (src.place t), some r)
      ((key, value), rest)

/-- Reads the entries of a flow mapping; `first` tells that no comma has to come before. -/
def readFlowEntries (src : Source) (first : Bool) (fuel : Nat) (r : Rest) :
    List (Node × Node) × Option Fault × Option Rest :=
  match fuel with
  | 0 => ([], some ⟨.endOfText, src.stop⟩, none)
  | fuel + 1 =>
    match src.peek r with
    | .error f => ([], some f, none)
    | .ok t =>
      if isOneOf t [.closeBrace] then ([], none, some r.drop)
      else if !first && !isOneOf t [.comma] then ([], some ⟨.noCommaOrBrace, src.place t⟩, none)
      else
        let r := if first then r else r.drop
        match src.peek r with
        | .error f => ([], some f, none)
        | .ok t =>
          if isOneOf t [.closeBrace] then ([], none, some r.drop)
          else
            let keyed := isOneOf t [.key]
            let (key, rest) : Step :=
              if keyed then readFlowNode src [.value, .comma, .closeBrace] fuel r.drop
              else readNode src false false fuel r
            match rest with
            | none => ([(key, .fault ⟨.endOfText, src.stop⟩)], none, none)
            | some r =>
              let (value, rest) : Step := match src.peek r with
                | .error f => (.fault f, none)
                | .ok t =>
                  if keyed && isOneOf t [.value] then
                    readFlowNode src [.comma, .closeBrace] fuel r.drop
                  else (Node.empty (src.place t), some r)
              match rest with
              | none => ([(key, value)], none, none)
              | some r =>
                let (entries, fault, rest) := readFlowEntries src false fuel r
                ((key, value) :: entries, fault, rest)

end

end Source

/-- A text with one document: its root, unless there is nothing in it, and the fault that comes
after the root. -/
structure Document where
  root : Option Node
  stop : Option Fault

namespace Document

/-- Takes in the directives in front of a document. -/
def directives (src : Source) (versioned : Bool) (handles : List String) :
    List Token → Except Fault (Source × List Token)
  | ⟨.version major minor, start, _⟩ :: ts =>
    if versioned then .error ⟨.repeatedVersion, start⟩
    else if major = 1 ∧ (minor = 1 ∨ minor = 2) then directives src true handles ts
    else .error ⟨.version, start⟩
  | ⟨.tagDirective handle start, mark, _⟩ :: ts =>
    if handles.contains handle then .error ⟨.repeatedTag, mark⟩
    else
      let src := { src with tags := (handle, start) :: src.tags }
      directives src versioned (handle :: handles) ts
  | ts => .ok (src, ts)

/-- What stands after the root: nothing, or what makes the text faulty. -/
def ending (src : Source) (r : Rest) : Option Fault :=
  match src.peek { r with tokens := r.tokens.dropWhile (·.kind == .documentEnd) } with
  | .error f => some f
  | .ok none => none
  | .ok (some t) => some ⟨.severalDocuments, t.start⟩

/-- The document that starts after its directives. -/
def afterDirectives (src : Source) (explicit : Bool) (ts : List Token) : Document :=
  let r : Rest := { tokens := ts }
  let ends (t : Option Token) : Bool :=
    match Source.kindOf t with
    | none | some .documentStart | some .documentEnd => true
    | some (.version _ _) | some (.tagDirective _ _) => true
    | _ => false
  match src.peek r with
  | .error f => ⟨some (.fault f), none⟩
  | .ok t =>
    if explicit && ends t then ⟨some (Node.empty (src.place t)), ending src r⟩
    else
      match src.readNode true false (4 * ts.length + 8) r with
      | (root, none) => ⟨some root, none⟩
      | (root, some r) => ⟨some root, ending src r⟩

/-- Reads the document of a text. -/
def ofText (text : String) : Document :=
  let tokens := Tokens.ofText text
  let src : Source := { fault := tokens.fault, stop := tokens.stop }
  match tokens.tokens with
  | [] =>
    match tokens.fault with
    | none => ⟨none, none⟩
    | some f => ⟨some (.fault f), none⟩
  | t :: ts =>
    match t.kind with
    | .documentStart => afterDirectives src true ts
    | .version _ _ | .tagDirective _ _ =>
      match directives src false [] (t :: ts) with
      | .error f => ⟨some (.fault f), none⟩
      | .ok (src, ts) =>
        match src.peek { tokens := ts } with
        | .error f => ⟨some (.fault f), none⟩
        | .ok (some ⟨.documentStart, _, _⟩) => afterDirectives src true (ts.drop 1)
        | .ok t => ⟨some (.fault ⟨.noDocumentStart, src.place t⟩), none⟩
    | _ => afterDirectives src false (t :: ts)

end Document
end HostedRepo.Yaml
