import TreeWalk.Proofs.Tree.Codec

/-!
The normal form of a document. A document that is decoded and encoded again keeps, at every level,
the fields of its nodes and loses all others; what it left out is filled in, and a few values that
are written in more than one way are written in one. Nothing else of it changes.
-/

set_option autoImplicit false

namespace TreeWalk

/-- What a field of a node holds. -/
inductive Content where
  | part
  | optionalPart
  | body
  | constant
  | line
  | plain
  deriving DecidableEq, Repr

/-- What stands for a field that may be left out. -/
def Content.absent : Content → Json
  | .line => .number (.whole 0)
  | _ => .null

/-- The fields of a node beside its type. -/
def NodeType.fields : NodeType → List (String × Content)
  | .token => [("kind", .plain), ("text", .plain), ("line", .line)]
  | .program | .block => [("statements", .body)]
  | .print | .expression | .grouping => [("expression", .part)]
  | .declare => [("name", .part), ("initializer", .optionalPart)]
  | .branch => [("condition", .part), ("then_branch", .part), ("else_branch", .optionalPart)]
  | .loop => [("condition", .part), ("body", .part)]
  | .logical | .binary => [("left", .part), ("operator", .part), ("right", .part)]
  | .assign => [("name", .part), ("value", .part)]
  | .var => [("name", .part)]
  | .literal => [("value", .constant)]
  | .unary => [("operator", .part), ("right", .part)]

namespace Json

def nodeType? (fields : List (Text × Json)) : Option NodeType :=
  match lookup "type" fields with
  | some (.text s) => NodeType.ofName? s
  | _ => none

/-- An integer is written as the double that it rounds to. -/
def normalConstant : Json → Json
  | .number (.whole n) =>
    match (Number.whole n).toDouble? with
    | some x => .number (.double x)
    | none => .number (.whole n)
  | json => json

/-- A line is written as the integer that it stands for. -/
def normalLine (json : Json) : Json :=
  match decodeLine json with
  | .ok n => .number (.whole n)
  | .error _ => json

mutual

/-- The normal form of a node. The keys of an object have no order that matters; they are put into
that of the type. -/
def normal : Json → Json
  | .object fields =>
    match nodeType? fields with
    | some type =>
      .object (("type", .text type.name) ::
        type.fields.map fun field => (field.1, normalField field.1 field.2 fields))
    | none => .object fields
  | json => json
termination_by structural json => json

/-- The normal form of what an object has under a key. -/
def normalField (key : String) (content : Content) : List (Text × Json) → Json
  | [] => content.absent
  | (k, value) :: fields =>
    if k = key then
      match content with
      | .part | .optionalPart => normal value
      | .body => normalBody value
      | .constant => normalConstant value
      | .line => normalLine value
      | .plain => value
    else normalField key content fields
termination_by structural fields => fields

/-- The normal form of the statements of a program or a block: a list. -/
def normalBody : Json → Json
  | .list items => .list (normalItems items)
  | .text s => if s.isEmpty then .list [] else .text s
  | .object [] => .list []
  | json => json
termination_by structural json => json

def normalItems : List Json → List Json
  | [] => []
  | item :: items => normal item :: normalItems items
termination_by structural items => items

end

theorem normal_object {fields : List (Text × Json)} {type : NodeType}
    (typed : nodeType? fields = some type) :
    normal (.object fields) = type.encode
      (type.fields.map fun field => (field.1, normalField field.1 field.2 fields)) := by
  rw [normal, typed]
  rfl

/-- The normal form of a value of a field. -/
def normalAs : Content → Json → Json
  | .part | .optionalPart => normal
  | .body => normalBody
  | .constant => normalConstant
  | .line => normalLine
  | .plain => id

theorem normalField_eq (key : String) (content : Content) (fields : List (Text × Json)) :
    normalField key content fields =
      (lookup key fields).elim content.absent (normalAs content) := by
  induction fields with
  | nil => rfl
  | cons field fields ih =>
    obtain ⟨k, value⟩ := field
    by_cases here : k = key
    · cases content <;>
        simp only [lookup, normalField, here, if_true, Option.elim_some, normalAs, id]
    · cases content <;> simp only [lookup, normalField, here, if_false, ih]

end Json

theorem bind_eq_ok {ε α β : Type} {x : Except ε α} {f : α → Except ε β} {b : β} :
    (x >>= f) = .ok b ↔ ∃ a, x = .ok a ∧ f a = .ok b := by
  cases x with
  | ok a => simp
  | error e => simp [bind, Except.bind]

theorem pure_eq_ok {ε α : Type} {a b : α} : (pure a : Except ε α) = .ok b ↔ a = b := by
  simp [pure, Except.pure]

theorem Node.asExpr_eq_ok {n : Node} {e : Expr} : n.asExpr = .ok e ↔ n = .expression e := by
  cases n <;> simp [Node.asExpr]

theorem Node.asStmt_eq_ok {n : Node} {s : Stmt} : n.asStmt = .ok s ↔ n = .statement s := by
  cases n <;> simp [Node.asStmt]

theorem Node.asToken_eq_ok {n : Node} {t : Token} : n.asToken = .ok t ↔ n = .token t := by
  cases n <;> simp [Node.asToken]

theorem Node.optional_eq_ok {α : Type} {family : Node → Except DecodeError α} {n : Node}
    {part : Option α} (decoded : n.optional family = .ok part) :
    n = .null ∧ part = none ∨ ∃ a, family n = .ok a ∧ part = some a := by
  unfold Node.optional at decoded
  split at decoded
  · cases decoded
    exact .inl ⟨rfl, rfl⟩
  · simp only [bind_eq_ok, pure_eq_ok] at decoded
    obtain ⟨a, taken, rfl⟩ := decoded
    exact .inr ⟨a, taken, rfl⟩

theorem nodeType?_of_decodeType {fields : List (Text × Json)} {type : NodeType}
    (decoded : decodeType fields = .ok type) : Json.nodeType? fields = some type := by
  unfold decodeType at decoded
  unfold Json.nodeType?
  cases found : Json.lookup "type" fields with
  | none =>
    rw [found] at decoded
    cases decoded
  | some value =>
    rw [found] at decoded
    cases value with
    | text s =>
      dsimp only [Option.getD_some] at decoded ⊢
      split at decoded
      · next known =>
        cases decoded
        exact known
      · cases decoded
    | _ => cases decoded

theorem decodeKind_eq_ok {json : Json} {kind : Kind} (decoded : decodeKind json = .ok kind) :
    json = .text kind.name := by
  unfold decodeKind at decoded
  split at decoded
  · split at decoded
    · next found =>
      cases decoded
      have named := List.find?_some found
      rw [of_decide_eq_true named]
    · cases decoded
  all_goals cases decoded

theorem requireField_eq_ok {key : String} {fields : List (Text × Json)} {json : Json} :
    requireField key fields = .ok json ↔ Json.lookup key fields = some json := by
  unfold requireField
  cases Json.lookup key fields <;> simp

/-- A token keeps its kind and its text, and the line that it stands for. -/
theorem encode_decodeToken {fields : List (Text × Json)} {t : Token}
    (typed : Json.nodeType? fields = some .token) (decoded : decodeToken fields = .ok t) :
    t.encode = Json.normal (.object fields) := by
  simp only [decodeToken, bind_eq_ok, pure_eq_ok, requireField_eq_ok] at decoded
  obtain ⟨_, kindFound, kind, kindDecoded, text, textFound, line, lineDecoded, rfl⟩ := decoded
  rw [decodeKind_eq_ok kindDecoded] at kindFound
  have lined : Json.normalField "line" .line fields = .number (.whole line) := by
    rw [Json.normalField_eq]
    cases found : Json.lookup "line" fields with
    | none =>
      rw [found] at lineDecoded
      cases lineDecoded
      rfl
    | some value =>
      rw [found, Option.getD_some] at lineDecoded
      simp only [Option.elim_some, Json.normalAs, Json.normalLine, lineDecoded]
  have kinded : Json.normalField "kind" .plain fields = .text kind.name := by
    rw [Json.normalField_eq, kindFound]
    rfl
  have texted : Json.normalField "text" .plain fields = text := by
    rw [Json.normalField_eq, textFound]
    rfl
  rw [Json.normal_object typed]
  simp only [NodeType.fields, List.map_cons, List.map_nil, kinded, texted, lined]
  rfl

theorem encode_decodeLiteral {json : Json} {value : Literal}
    (decoded : decodeLiteral json = .ok value) : value.encode = json.normalConstant := by
  unfold decodeLiteral at decoded
  split at decoded
  · cases decoded
    rfl
  · cases decoded
    rfl
  · cases decoded
    rfl
  · split at decoded
    · next found =>
      cases decoded
      simp only [Json.normalConstant, found, Literal.encode]
    · cases decoded
  · cases decoded
    rfl
  · cases decoded

theorem encode_decodeObject {fields : List (Text × Json)} {n : Node}
    (field : ∀ (key : String) (part : Node), decodeField key fields = .ok part →
      part.encode = Json.normalField key .part fields)
    (option : ∀ (key : String) (part : Node), decodeOptional key fields = .ok part →
      part.encode = Json.normalField key .optionalPart fields)
    (body : ∀ statements : List Stmt, decodeBody fields = .ok statements →
      Json.list (Stmt.encodeAll statements) = Json.normalField "statements" .body fields)
    (whole : decode (.object fields) = .ok n) : n.encode = (Json.object fields).normal := by
  rw [decode] at whole
  obtain ⟨type, known, decoded⟩ := bind_eq_ok.1 whole
  have typed := nodeType?_of_decodeType known
  rw [Json.normal_object typed]
  cases type with
  | token =>
    simp only [bind_eq_ok, pure_eq_ok] at decoded
    obtain ⟨t, decoded, rfl⟩ := decoded
    rw [← Json.normal_object typed]
    exact encode_decodeToken typed decoded
  | program | block =>
    simp only [bind_eq_ok, pure_eq_ok] at decoded
    obtain ⟨statements, decoded, rfl⟩ := decoded
    simp only [NodeType.fields, List.map_cons, List.map_nil, ← body _ decoded]
    rfl
  | print | expression | grouping =>
    simp only [bind_eq_ok, pure_eq_ok, Node.asExpr_eq_ok] at decoded
    obtain ⟨_, decoded, value, rfl, rfl⟩ := decoded
    simp only [NodeType.fields, List.map_cons, List.map_nil, ← field _ _ decoded]
    rfl
  | declare =>
    simp only [bind_eq_ok, pure_eq_ok, Node.asToken_eq_ok] at decoded
    obtain ⟨_, named, name, rfl, _, valued, initial, part, rfl⟩ := decoded
    simp only [NodeType.fields, List.map_cons, List.map_nil, ← field _ _ named,
      ← option _ _ valued]
    rcases Node.optional_eq_ok part with ⟨rfl, rfl⟩ | ⟨e, isExpr, rfl⟩
    · rfl
    · rw [Node.asExpr_eq_ok.1 isExpr]
      rfl
  | branch =>
    simp only [bind_eq_ok, Node.asExpr_eq_ok, Node.asStmt_eq_ok] at decoded
    obtain ⟨_, tested, condition, rfl, _, first, yes, rfl, _, second, no, part, decoded⟩ := decoded
    simp only [NodeType.fields, List.map_cons, List.map_nil, ← field _ _ tested,
      ← field _ _ first, ← option _ _ second]
    rcases Node.optional_eq_ok part with ⟨rfl, rfl⟩ | ⟨s, isStmt, rfl⟩
    · cases decoded
      rfl
    · cases decoded
      rw [Node.asStmt_eq_ok.1 isStmt]
      rfl
  | loop =>
    simp only [bind_eq_ok, pure_eq_ok, Node.asExpr_eq_ok, Node.asStmt_eq_ok] at decoded
    obtain ⟨_, tested, condition, rfl, _, repeated, inner, rfl, rfl⟩ := decoded
    simp only [NodeType.fields, List.map_cons, List.map_nil, ← field _ _ tested,
      ← field _ _ repeated]
    rfl
  | logical | binary =>
    simp only [bind_eq_ok, pure_eq_ok, Node.asExpr_eq_ok, Node.asToken_eq_ok] at decoded
    obtain ⟨_, first, left, rfl, _, signed, operator, rfl, _, second, right, rfl, rfl⟩ := decoded
    simp only [NodeType.fields, List.map_cons, List.map_nil, ← field _ _ first,
      ← field _ _ signed, ← field _ _ second]
    rfl
  | assign =>
    simp only [bind_eq_ok, pure_eq_ok, Node.asExpr_eq_ok, Node.asToken_eq_ok] at decoded
    obtain ⟨_, named, name, rfl, _, valued, value, rfl, rfl⟩ := decoded
    simp only [NodeType.fields, List.map_cons, List.map_nil, ← field _ _ named,
      ← field _ _ valued]
    rfl
  | var =>
    simp only [bind_eq_ok, pure_eq_ok, Node.asToken_eq_ok] at decoded
    obtain ⟨_, named, name, rfl, rfl⟩ := decoded
    simp only [NodeType.fields, List.map_cons, List.map_nil, ← field _ _ named]
    rfl
  | literal =>
    simp only [bind_eq_ok, pure_eq_ok] at decoded
    obtain ⟨value, decoded, rfl⟩ := decoded
    have constant : Json.normalField "value" .constant fields = value.encode := by
      rw [encode_decodeLiteral decoded, Json.normalField_eq]
      cases Json.lookup "value" fields <;> rfl
    simp only [NodeType.fields, List.map_cons, List.map_nil, constant]
    rfl
  | unary =>
    simp only [bind_eq_ok, pure_eq_ok, Node.asExpr_eq_ok, Node.asToken_eq_ok] at decoded
    obtain ⟨_, signed, operator, rfl, _, valued, operand, rfl, rfl⟩ := decoded
    simp only [NodeType.fields, List.map_cons, List.map_nil, ← field _ _ signed,
      ← field _ _ valued]
    rfl

mutual

theorem encode_decode : ∀ (json : Json) (n : Node), decode json = .ok n → n.encode = json.normal
  | .null, n, decoded => by
    cases decoded
    rfl
  | .object fields, n, decoded =>
    encode_decodeObject (fun key => encode_decodeField key fields)
      (fun key => encode_decodeOptional key fields) (encode_decodeBody fields) decoded
  | .bool _, _, decoded | .number _, _, decoded | .text _, _, decoded | .list _, _, decoded => by
    cases decoded
termination_by structural json => json

theorem encode_decodeField (key : String) : ∀ (fields : List (Text × Json)) (n : Node),
    decodeField key fields = .ok n → n.encode = Json.normalField key .part fields
  | [], n, decoded => by cases decoded
  | (k, value) :: fields, n, decoded => by
    rw [decodeField] at decoded
    rw [Json.normalField]
    split at decoded
    · next here =>
      rw [if_pos here]
      exact encode_decode value n decoded
    · next other =>
      rw [if_neg other]
      exact encode_decodeField key fields n decoded
termination_by structural fields => fields

theorem encode_decodeOptional (key : String) : ∀ (fields : List (Text × Json)) (n : Node),
    decodeOptional key fields = .ok n → n.encode = Json.normalField key .optionalPart fields
  | [], n, decoded => by
    cases decoded
    rfl
  | (k, value) :: fields, n, decoded => by
    rw [decodeOptional] at decoded
    rw [Json.normalField]
    split at decoded
    · next here =>
      rw [if_pos here]
      exact encode_decode value n decoded
    · next other =>
      rw [if_neg other]
      exact encode_decodeOptional key fields n decoded
termination_by structural fields => fields

theorem encode_decodeBody : ∀ (fields : List (Text × Json)) (body : List Stmt),
    decodeBody fields = .ok body →
      Json.list (Stmt.encodeAll body) = Json.normalField "statements" .body fields
  | [], body, decoded => by cases decoded
  | (k, value) :: fields, body, decoded => by
    rw [decodeBody] at decoded
    rw [Json.normalField]
    split at decoded
    · next here =>
      rw [if_pos here]
      exact encode_decodeStatements value body decoded
    · next other =>
      rw [if_neg other]
      exact encode_decodeBody fields body decoded
termination_by structural fields => fields

theorem encode_decodeStatements : ∀ (json : Json) (body : List Stmt),
    decodeStatements json = .ok body → Json.list (Stmt.encodeAll body) = json.normalBody
  | .list items, body, decoded => by
    rw [decodeStatements] at decoded
    rw [Json.normalBody, encode_decodeItems items body decoded]
  | .text s, body, decoded => by
    rw [decodeStatements] at decoded
    rw [Json.normalBody]
    split at decoded
    · next blank =>
      cases decoded
      rw [if_pos blank]
      rfl
    · cases decoded
  | .object [], body, decoded => by
    cases decoded
    rfl
  | .object (_ :: _), _, decoded | .null, _, decoded | .bool _, _, decoded
  | .number _, _, decoded => by cases decoded
termination_by structural json => json

theorem encode_decodeItems : ∀ (items : List Json) (body : List Stmt),
    decodeItems items = .ok body → Stmt.encodeAll body = Json.normalItems items
  | [], body, decoded => by
    cases decoded
    rfl
  | item :: items, body, decoded => by
    simp only [decodeItems, bind_eq_ok, pure_eq_ok, Node.asStmt_eq_ok] at decoded
    obtain ⟨_, first, s, rfl, rest, later, rfl⟩ := decoded
    rw [Json.normalItems, Stmt.encodeAll, encode_decodeItems items rest later,
      ← encode_decode item _ first]
    rfl
termination_by structural items => items

end

/-- Decoding and encoding a document gives its normal form, whatever else the document says; and
the normal form of a document is its own normal form. -/
theorem encoding_only_normalises {json : Json} {n : Node} (decoded : decode json = .ok n) :
    n.encode = json.normal ∧ json.normal.normal = json.normal := by
  have same := encode_decode json n decoded
  refine ⟨same, ?_⟩
  rw [← same]
  exact (encode_decode _ n (decode_node n)).symm

/-- A document with a note, fields out of order, a line that is a text, a block whose
statements are an empty text, an integer for a constant and a constant without a value. -/
def loose : Json :=
  .object [("note", .list [.null]), ("statements", .list
    [.object [("name", .object [("line", .text " 1_2 "), ("type", .text "Token"),
        ("text", .list []), ("kind", .text "IDENTIFIER")]), ("type", .text "VarDecl")],
      .object [("type", .text "Block"), ("statements", .text "")],
      .object [("type", .text "PrintStmt"), ("expression", .object [("type", .text "Binary"),
        ("left", .object [("value", .number (.whole 2)), ("type", .text "Literal")]),
        ("operator", .object [("type", .text "Token"), ("kind", .text "ADD"), ("text", .null)]),
        ("right", .object [("type", .text "Literal")])])]]), ("type", .text "Program")]

theorem encoding_only_normalises_loose :
    let p : Program := ⟨[.declare ⟨.identifier, .list [], 12⟩ none, .block [],
      .print (.binary (.literal (.number 2.0)) ⟨.add, .null, 0⟩ (.literal .null))]⟩
    decode loose = .ok (.program p) ∧ (Node.program p).encode = loose.normal ∧
    loose.normal = .object [("type", .text "Program"), ("statements", .list
      [.object [("type", .text "VarDecl"), ("name", .object [("type", .text "Token"),
          ("kind", .text "IDENTIFIER"), ("text", .list []), ("line", .number (.whole 12))]),
          ("initializer", .null)],
        .object [("type", .text "Block"), ("statements", .list [])],
        .object [("type", .text "PrintStmt"), ("expression", .object [("type", .text "Binary"),
          ("left", .object [("type", .text "Literal"), ("value", .number (.double 2.0))]),
          ("operator", .object [("type", .text "Token"), ("kind", .text "ADD"), ("text", .null),
            ("line", .number (.whole 0))]),
          ("right", .object [("type", .text "Literal"), ("value", .null)])])]])] := by
  intro p
  have decoded : decode loose = .ok (.program p) := rfl
  exact ⟨decoded, (encoding_only_normalises decoded).1, rfl⟩

end TreeWalk
