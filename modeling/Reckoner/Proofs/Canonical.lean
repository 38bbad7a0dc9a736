import Reckoner.Proofs.Documents

/-!
Canonical data. Decoding is liberal: it ignores fields that it does not know and takes whole numbers,
truth values and texts for numbers, and texts and records for lists of names. Encoding is not: its
data have exactly the fields of their type. `Canonical` describes these data without the encoder. They
are the data that encoding what was decoded leaves unchanged, so that decoding and encoding any datum
that holds a tree leads to a canonical one, of the same tree, in one step.
-/
namespace Reckoner.Node

/-- A datum with exactly the fields of a tree, in their order. -/
inductive Canonical : Datum → Prop
  | program {items : List Datum} (each : ∀ item ∈ items, Canonical item) :
      Canonical (.record [("type", .text "Program"), ("body", .list items)])
  | number (value : Float) :
      Canonical (.record [("type", .text "NumberLiteral"), ("value", .number value)])
  | reference (name : Datum) :
      Canonical (.record [("type", .text "VariableRef"), ("name", name)])
  | binary {symbol : String} {left right : Datum} (known : symbol ∈ ["+", "-", "*", "/"])
      (first : Canonical left) (second : Canonical right) :
      Canonical (.record
        [("type", .text "BinaryOp"), ("op", .text symbol), ("left", left), ("right", right)])
  | call (name : Datum) {items : List Datum} (each : ∀ item ∈ items, Canonical item) :
      Canonical (.record [("type", .text "FunctionCall"), ("name", name), ("args", .list items)])
  | definition (name : Datum) {value : Datum} (inner : Canonical value) :
      Canonical (.record [("type", .text "Definition"), ("name", name), ("value", value)])
  | function (name : Datum) (parameters : List Datum) {body : Datum} (inner : Canonical body) :
      Canonical (.record
        [("type", .text "FunctionDef"), ("name", name), ("params", .list parameters), ("body", body)])

theorem symbol_mem (operator : Operator) : operator.symbol ∈ ["+", "-", "*", "/"] := by
  cases operator <;> simp [Operator.symbol]

theorem exists_symbol {symbol : String} (known : symbol ∈ ["+", "-", "*", "/"]) :
    ∃ operator : Operator, operator.symbol = symbol := by
  simp only [List.mem_cons, List.not_mem_nil, or_false] at known
  rcases known with rfl | rfl | rfl | rfl
  · exact ⟨.add, rfl⟩
  · exact ⟨.subtract, rfl⟩
  · exact ⟨.multiply, rfl⟩
  · exact ⟨.divide, rfl⟩

mutual

/-- Encoding makes canonical data. -/
theorem canonical_encode : (node : Node) → Canonical node.encode
  | program body => .program (canonical_encodeList body)
  | number value => .number value
  | reference name => .reference name
  | binary operator left right =>
    .binary (symbol_mem operator) (canonical_encode left) (canonical_encode right)
  | call name arguments => .call name (canonical_encodeList arguments)
  | definition name value => .definition name (canonical_encode value)
  | function name parameters body => .function name parameters (canonical_encode body)

theorem canonical_encodeList : (nodes : List Node) → ∀ item ∈ encodeList nodes, Canonical item
  | [] => by simp [encodeList]
  | node :: rest => by
    have first := canonical_encode node
    have others := canonical_encodeList rest
    rw [encodeList]
    exact List.forall_mem_cons.2 ⟨first, others⟩

end

/-- Data that are each the datum of a tree are the data of a list of trees. -/
theorem exists_encodeList {items : List Datum} (each : ∀ item ∈ items, ∃ node : Node, node.encode = item) :
    ∃ nodes, encodeList nodes = items := by
  induction items with
  | nil => exact ⟨[], rfl⟩
  | cons item rest ih =>
    obtain ⟨⟨node, same⟩, others⟩ := List.forall_mem_cons.1 each
    obtain ⟨nodes, sames⟩ := ih others
    exact ⟨node :: nodes, by rw [encodeList, same, sames]⟩

/-- Every canonical datum is that of a tree. -/
theorem Canonical.exists_encode {datum : Datum} (canonical : Canonical datum) :
    ∃ node : Node, node.encode = datum := by
  induction canonical with
  | program each ih =>
    obtain ⟨nodes, rfl⟩ := exists_encodeList ih
    exact ⟨.program nodes, rfl⟩
  | number value => exact ⟨.number value, rfl⟩
  | reference name => exact ⟨.reference name, rfl⟩
  | binary known _ _ first second =>
    obtain ⟨operator, rfl⟩ := exists_symbol known
    obtain ⟨left, rfl⟩ := first
    obtain ⟨right, rfl⟩ := second
    exact ⟨.binary operator left right, rfl⟩
  | call name each ih =>
    obtain ⟨nodes, rfl⟩ := exists_encodeList ih
    exact ⟨.call name nodes, rfl⟩
  | definition name _ ih =>
    obtain ⟨value, rfl⟩ := ih
    exact ⟨.definition name value, rfl⟩
  | function name parameters _ ih =>
    obtain ⟨body, rfl⟩ := ih
    exact ⟨.function name parameters body, rfl⟩

/-- A datum that holds a tree is canonical exactly if it is the datum of that tree. -/
theorem canonical_iff_encode_eq {datum : Datum} {node : Node} (read : decode datum = .ok node) :
    Canonical datum ↔ node.encode = datum := by
  constructor
  · intro canonical
    obtain ⟨other, rfl⟩ := canonical.exists_encode
    rw [decode_encode] at read
    cases read
    rfl
  · rintro rfl
    exact canonical_encode node

/-- A node whose parts need `inner` levels needs one more. -/
theorem fits_iff_succ {node : Node} {inner : Nat} (surface : node.fits 0 = false)
    (within : ∀ depth, node.fits (depth + 1) = true ↔ inner ≤ depth) (depth : Nat) :
    node.fits depth = true ↔ inner + 1 ≤ depth := by
  cases depth with
  | zero => simp [surface]
  | succ depth => rw [within, Nat.add_le_add_iff_right]

mutual

/-- Every tree fits exactly from some depth on. -/
theorem exists_fits : (node : Node) → ∃ least, ∀ depth, node.fits depth = true ↔ least ≤ depth
  | program body => by
    obtain ⟨least, inner⟩ := exists_fitsList body
    exact ⟨least + 1, fits_iff_succ rfl fun depth => by rw [fits, inner]⟩
  | number value => ⟨1, fits_iff_succ rfl fun depth => by simp [fits]⟩
  | reference name => ⟨1, fits_iff_succ rfl fun depth => by simp [fits]⟩
  | binary operator left right => by
    obtain ⟨one, first⟩ := exists_fits left
    obtain ⟨two, second⟩ := exists_fits right
    refine ⟨max one two + 1, fits_iff_succ rfl fun depth => ?_⟩
    rw [fits, Bool.and_eq_true, first, second, Nat.max_le]
  | call name arguments => by
    obtain ⟨least, inner⟩ := exists_fitsList arguments
    exact ⟨least + 1, fits_iff_succ rfl fun depth => by rw [fits, inner]⟩
  | definition name value => by
    obtain ⟨least, inner⟩ := exists_fits value
    exact ⟨least + 1, fits_iff_succ rfl fun depth => by rw [fits, inner]⟩
  | function name parameters body => by
    obtain ⟨least, inner⟩ := exists_fits body
    exact ⟨least + 1, fits_iff_succ rfl fun depth => by rw [fits, inner]⟩

theorem exists_fitsList :
    (nodes : List Node) → ∃ least, ∀ depth, fitsList depth nodes = true ↔ least ≤ depth
  | [] => ⟨0, fun depth => by simp [fitsList]⟩
  | node :: rest => by
    obtain ⟨one, first⟩ := exists_fits node
    obtain ⟨others, second⟩ := exists_fitsList rest
    exact ⟨max one others, fun depth => by rw [fitsList, Bool.and_eq_true, first, second, Nat.max_le]⟩

end

/-- Encoding within a depth is encoding, from some depth on. -/
theorem exists_encodeWithin (node : Node) :
    ∃ least, ∀ depth,
      node.encodeWithin depth = if least ≤ depth then .ok node.encode else .error .depth := by
  obtain ⟨least, fits⟩ := exists_fits node
  refine ⟨least, fun depth => ?_⟩
  rw [encodeWithin]
  exact if_congr (fits depth) rfl rfl

/-- Every tree is decoded from its datum, which is made from some depth on; and the datum of a tree
    that was decoded from any datum is canonical: it is decoded to the same tree, decoding and encoding
    leave it unchanged, and the datum that it was made of was canonical only if it was this one. -/
theorem encode_canonical :
    (∀ node : Node, decode node.encode = .ok node ∧
        ∃ least, ∀ depth,
          node.encodeWithin depth = if least ≤ depth then .ok node.encode else .error .depth) ∧
      ∀ (datum : Datum) (node : Node), decode datum = .ok node →
        Canonical node.encode ∧ decode node.encode = .ok node ∧
          encode <$> decode node.encode = .ok node.encode ∧
          (Canonical datum ↔ node.encode = datum) := by
  refine ⟨fun node => ⟨decode_encode node, exists_encodeWithin node⟩, fun datum node read => ?_⟩
  refine ⟨canonical_encode node, decode_encode node, ?_, canonical_iff_encode_eq read⟩
  rw [decode_encode]
  rfl

theorem encode_canonical_lax :
    let lax : Datum := .record [("line", .integer 3), ("params", .text "xy"), ("type", .text "FunctionDef"),
      ("name", .null), ("body", .record [("type", .text "NumberLiteral"), ("value", .bool true)])]
    let strict : Datum := .record [("type", .text "FunctionDef"), ("name", .null),
      ("params", .list [.text "x", .text "y"]),
      ("body", .record [("type", .text "NumberLiteral"), ("value", .number 1.0)])]
    encode <$> decode lax = .ok strict ∧ Canonical strict ∧ ¬ Canonical lax ∧
      encode <$> decode strict = .ok strict := by
  intro lax strict
  have read : decode lax = .ok (.function .null [.text "x", .text "y"] (.number 1.0)) := rfl
  obtain ⟨canonical, _, same, only⟩ := encode_canonical.2 lax _ read
  refine ⟨by rw [read]; rfl, canonical, fun wrong => ?_, same⟩
  have unchanged := only.1 wrong
  simp [lax, encode, tagged] at unchanged

end Reckoner.Node
