import Reckoner.Node.Document
import Reckoner.Proofs.Datum.RoundTrip
import Reckoner.Proofs.Ordinary

/-!
Trees in documents. Every tree is decoded from its datum, and the datum of an ordinary program can be
written and read, so that a document of the program gives the program back where the limits leave room
for it.
-/
namespace Reckoner.Node

theorem typeField_tagged (tag : String) (fields : Datum.Fields) :
    typeField (("type", .text tag) :: fields) = .text tag := by
  simp [typeField, Datum.field?]

theorem need_here (key : String) (value : Datum) (fields : Datum.Fields) :
    need ((Spelling.whole key, value) :: fields) key = .ok value := by
  simp [need, Datum.field?]

theorem need_later {key other : String} (ne : key ≠ other) (value : Datum) (fields : Datum.Fields) :
    need ((Spelling.whole key, value) :: fields) other = need fields other := by
  have differ : (Spelling.whole other == Spelling.whole key) = false := by simpa using Ne.symm ne
  simp only [need, Datum.field?, List.lookup, differ]

theorem decodeOperator_symbol (operator : Operator) :
    decodeOperator (.text operator.symbol) = .ok operator := by
  rw [decodeOperator, Operator.ofSymbol?_symbol]

mutual

/-- A tree is decoded from its datum. -/
theorem decode_encode : (node : Node) → decode node.encode = .ok node
  | program body => by
    have inner := decodeList_encodeList body
    rw [encode, tagged, decode]
    simp [typeField_tagged, decodeListField, decodeElements, inner, Functor.map, Except.map]
  | number value => by
    rw [encode, tagged, decode]
    simp [typeField_tagged, need_here, need_later, Datum.toFloat, bind, Except.bind, pure,
      Except.pure]
  | reference name => by
    rw [encode, tagged, decode]
    simp [typeField_tagged, need_here, need_later, Functor.map, Except.map]
  | binary operator left right => by
    have first := decode_encode left
    have second := decode_encode right
    rw [encode, tagged, decode]
    simp [typeField_tagged, need_here, need_later, decodeOperator_symbol, decodeField, first, second,
      bind, Except.bind, pure, Except.pure]
  | call name arguments => by
    have inner := decodeList_encodeList arguments
    rw [encode, tagged, decode]
    simp [typeField_tagged, need_here, need_later, decodeListField, decodeElements, inner,
      bind, Except.bind, pure, Except.pure]
  | definition name value => by
    have inner := decode_encode value
    rw [encode, tagged, decode]
    simp [typeField_tagged, need_here, need_later, decodeField, inner, bind, Except.bind, pure,
      Except.pure]
  | function name parameters body => by
    have inner := decode_encode body
    rw [encode, tagged, decode]
    simp [typeField_tagged, need_here, need_later, decodeField, Datum.elements, inner, bind,
      Except.bind, pure, Except.pure]

theorem decodeList_encodeList : (nodes : List Node) → decodeList (encodeList nodes) = .ok nodes
  | [] => rfl
  | node :: rest => by
    have first := decode_encode node
    have others := decodeList_encodeList rest
    rw [encodeList, decodeList, first, others]
    rfl

end

theorem encodeList_eq_map (nodes : List Node) : encodeList nodes = nodes.map encode := by
  induction nodes with
  | nil => rfl
  | cons node nodes ih => rw [encodeList, ih, List.map_cons]

open Datum (Portable)

/-- A record of a node is portable if its fields are and do not share their keys. -/
theorem portable_tagged (tag : String) {fields : List (String × Datum)}
    (distinct : ("type" :: fields.map Prod.fst).Nodup) (each : ∀ field ∈ fields, field.2.Portable) :
    (tagged tag (fields.map fun field => (.whole field.1, field.2))).Portable :=
  @Portable.record (("type", .text tag) :: fields) distinct
    (List.forall_mem_cons.2 ⟨.text tag, each⟩)

theorem Arithmetic.portable {node : Node} (arithmetic : node.Arithmetic) :
    node.encode.Portable := by
  induction arithmetic with
  | number value =>
    rw [encode]
    refine @portable_tagged "NumberLiteral" [("value", .number value)] (by simp) ?_
    simpa using Portable.number value
  | reference name =>
    rw [encode]
    refine @portable_tagged "VariableRef" [("name", .text name)] (by simp) ?_
    simpa using Portable.text name
  | @binary operator left right _ _ first second =>
    rw [encode]
    refine @portable_tagged "BinaryOp" [("op", .text operator.symbol), ("left", left.encode),
      ("right", right.encode)] (by simp) ?_
    simpa using ⟨Portable.text operator.symbol, first, second⟩
  | @call name arguments _ ih =>
    have inner : (Datum.list (encodeList arguments)).Portable := by
      refine .list fun item inside => ?_
      rw [encodeList_eq_map] at inside
      obtain ⟨argument, member, rfl⟩ := List.mem_map.1 inside
      exact ih argument member
    rw [encode]
    refine @portable_tagged "FunctionCall" [("name", .text name),
      ("args", .list (encodeList arguments))] (by simp) ?_
    simpa using ⟨Portable.text name, inner⟩

theorem Ordinary.portable {node : Node} (ordinary : node.Ordinary) : node.encode.Portable := by
  cases ordinary with
  | expression arithmetic => exact arithmetic.portable
  | @definition name value arithmetic =>
    rw [encode]
    refine @portable_tagged "Definition" [("name", .text name), ("value", value.encode)] (by simp) ?_
    simpa using ⟨Portable.text name, arithmetic.portable⟩
  | @function name parameters body arithmetic =>
    have texts : (Datum.list (parameters.map Datum.text)).Portable := by
      refine .list fun item inside => ?_
      obtain ⟨parameter, _, rfl⟩ := List.mem_map.1 inside
      exact .text parameter
    rw [encode]
    refine @portable_tagged "FunctionDef" [("name", .text name),
      ("params", .list (parameters.map Datum.text)), ("body", body.encode)] (by simp) ?_
    simpa using ⟨Portable.text name, texts, arithmetic.portable⟩

/-- The datum of an ordinary program is portable. -/
theorem portable_program {body : List Node} (ordinary : ∀ statement ∈ body, statement.Ordinary) :
    (program body).encode.Portable := by
  have inner : (Datum.list (encodeList body)).Portable := by
    refine .list fun item inside => ?_
    rw [encodeList_eq_map] at inside
    obtain ⟨statement, member, rfl⟩ := List.mem_map.1 inside
    exact (ordinary statement member).portable
  rw [encode]
  refine @portable_tagged "Program" [("body", .list (encodeList body))] (by simp) ?_
  simpa using inner

/-- An ordinary program is read from its document. -/
theorem ofDocument_write {limits : Limits} {body : List Node}
    (ordinary : ∀ statement ∈ body, statement.Ordinary)
    (room : (program body).encode.levels ≤ limits.documents) :
    ofDocument limits (program body).encode.write = .ok (program body) := by
  rw [ofDocument, (portable_program ordinary).read_write room]
  exact decode_encode (program body)

end Reckoner.Node
