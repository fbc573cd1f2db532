import AvroIdl.Proofs.Conversion.Policies
import AvroIdl.Proofs.Idl.ReadBlocks

/-
A protocol tells its namespace and the outlines of all its definitions, in order.
-/
set_option autoImplicit false

namespace AvroIdl

namespace Schema

theorem readable_nameSpaceLine :
    Readable (fun nameSpace => (nameSpaceLine nameSpace).toList) id Unquoted
      (fun rest => ¬ "@namespace(\"".toList <+: rest) :=
  readable_annotationText nameSpaceLine "" "namespace" "\n" "@namespace(\"" (by simp) rfl
    (by simp [nameSpaceLine])

/-- Blocks that each come after an empty line, up to the end of the protocol. -/
theorem readable_followingBlocks :
    Readable (fun declarations : List Declaration =>
        declarations.flatMap (fun d => "\n\n".toList ++ (d.block 0).toList) ++ "\n\x7d\n".toList)
      (List.map Declaration.outline) (fun declarations => ∀ d ∈ declarations, d.Legible)
      Anything := by
  apply readable_followers (Declaration.readable_block 0) (fun _ => trivial) (fun _ => trivial)
  intro d rest rest' _ same
  have second := List.head_eq_of_cons_eq (List.tail_eq_of_cons_eq same)
  exact absurd second (by decide)

theorem toList_followingBlocks (declarations : List Declaration) :
    (followingBlocks declarations).toList =
      declarations.flatMap fun d => "\n\n".toList ++ (d.block 0).toList := by
  cases declarations with
  | nil => rfl
  | cons d rest =>
    have parted : followingBlocks (d :: rest) =
        "\n\n" ++ "\n\n".intercalate ((d :: rest).map fun d => d.block 0) := rfl
    rw [parted, String.toList_append, String.toList_intercalate, List.map_map,
      intercalate_map_cons, List.flatMap_cons, List.append_assoc]
    rfl

theorem toList_protocol (s : Schema) (declarations : List Declaration) :
    (s.protocol declarations).toList =
      (nameSpaceLine s.nameSpace).toList ++ ("protocol ".toList ++ (s.name.toList ++
        (" \x7b\n".toList ++ (((Declaration.record s.asRecord).block 0).toList ++
          (declarations.flatMap (fun d => "\n\n".toList ++ (d.block 0).toList) ++
            "\n\x7d\n".toList))))) := by
  rw [← toList_followingBlocks]
  simp only [protocol, Declaration.block, asRecord, String.toList_append, List.append_assoc]

theorem not_nameSpaceLine (rest : List Char) :
    ¬ "@namespace(\"".toList <+: "protocol ".toList ++ rest := by
  intro begun
  exact absurd (List.cons_prefix_cons.mp begun).1 (by decide)

/-- What a protocol tells of the schema it comes from. -/
theorem outlines_eq_of_render_eq {s s' : Schema} (quotes : Unquoted s.nameSpace)
    (quotes' : Unquoted s'.nameSpace) (legible : ∀ d ∈ s.definitions, d.Legible)
    (legible' : ∀ d ∈ s'.definitions, d.Legible) (same : s.render = s'.render) :
    s.nameSpace = s'.nameSpace ∧
      s.definitions.map Declaration.outline = s'.definitions.map Declaration.outline := by
  have top := legible _ List.mem_cons_self
  have top' := legible' _ List.mem_cons_self
  rw [render_eq, render_eq, ← String.toList_inj, toList_protocol, toList_protocol] at same
  obtain ⟨nameSpaces, same⟩ := readable_nameSpaceLine quotes quotes' (not_nameSpaceLine _)
    (not_nameSpaceLine _) same
  obtain ⟨names, same⟩ := readable_word top.1 top'.1 (Declaration.begins_brace _)
    (Declaration.begins_brace _) (List.append_cancel_left same)
  obtain ⟨tops, same⟩ := Declaration.readable_block 0 top top' trivial trivial
    (List.append_cancel_left same)
  have inside : ∀ d ∈ definitionsOf s.roots, d.Legible := fun d member =>
    legible d (List.mem_cons_of_mem _ member)
  have inside' : ∀ d ∈ definitionsOf s'.roots, d.Legible := fun d member =>
    legible' d (List.mem_cons_of_mem _ member)
  obtain ⟨others, -⟩ := readable_followingBlocks inside inside' trivial trivial
    (congrArg (· ++ []) same)
  refine ⟨nameSpaces, ?_⟩
  rw [definitions, definitions, List.map_cons, List.map_cons, tops, others]

end Schema

end AvroIdl
