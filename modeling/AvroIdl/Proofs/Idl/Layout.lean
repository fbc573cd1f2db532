import AvroIdl.Proofs.Idl.Deduplication

/-
How a protocol is laid out: its opening lines, one block for each definition, and the closing
brace. The top record is declared like any record inside of it.
-/
set_option autoImplicit false

namespace AvroIdl

namespace Schema

theorem declarations_asRecord (s : Schema) :
    (AvroType.record s.asRecord).declarations = s.definitions := by
  rw [AvroType.declarations, Walk.declared_redeclare, definitions_eq]

theorem block_asRecord (s : Schema) (level : Nat) :
    (Declaration.record s.asRecord).block level =
      docComment s.doc level ++ recordBody s.name s.fields level := rfl

/-- Whether or not more blocks follow, each one comes after an empty line. -/
theorem intercalate_blocks (d : Declaration) (rest : List Declaration) :
    "\n\n".intercalate ((d :: rest).map fun d => d.block 0) =
      d.block 0 ++ followingBlocks rest := by
  cases rest with
  | nil => rw [List.map_cons, List.map_nil, String.intercalate_singleton, followingBlocks,
      String.append_empty]
  | cons next rest =>
    have following : followingBlocks (next :: rest) =
        "\n\n" ++ "\n\n".intercalate ((next :: rest).map fun d => d.block 0) := rfl
    rw [following, List.map_cons, List.map_cons, String.intercalate_cons_cons,
      String.append_assoc]

/-- A protocol opens with its namespace, if it has one, and its name. Then come the blocks of all
declarations that the top record needs when it is taken as one type, the record itself being the
first, with an empty line between one block and the next. -/
theorem render_eq_blocks (s : Schema) :
    s.render =
      (s.nameSpace.elim "" fun name => "@namespace(\"" ++ name ++ "\")\n") ++
        ("protocol " ++ s.name ++ " \x7b\n") ++
        "\n\n".intercalate ((AvroType.record s.asRecord).declarations.map fun d => d.block 0) ++
        "\n\x7d\n" := by
  have opening : nameSpaceLine s.nameSpace =
      s.nameSpace.elim "" fun name => "@namespace(\"" ++ name ++ "\")\n" := by
    cases s.nameSpace with
    | none => rfl
    | some name =>
      rw [nameSpaceLine, annotationText, Option.elim_some]
      simp only [String.append_assoc]
      rfl
  rw [declarations_asRecord, definitions, intercalate_blocks, block_asRecord, ← opening,
    render_eq, protocol]
  simp only [String.append_assoc]

end Schema

end AvroIdl
