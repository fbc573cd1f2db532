import AvroIdl.Proofs.Command.Ending
import AvroIdl.Proofs.Conversion.Policies

/-
What a run leaves behind: the protocol at the place that was asked for and nothing else, or no
change at all.
-/
set_option autoImplicit false

namespace AvroIdl.Command

namespace FileTree

/-- A file holds these bytes, and all else is as it was. -/
structure Wrote (before after : FileTree) (location : Location) (contents : List UInt8) :
    Prop where
  holds : after.get? location = some (.file contents)
  frame : ∀ other, other ≠ location → after.get? other = before.get? other

theorem put_wrote (tree : FileTree) {location : Location} (below : location ≠ [])
    (contents : List UInt8) : tree.Wrote (tree.put location (.file contents)) location contents :=
  ⟨tree.get?_put_self _ below, fun _ differ => tree.get?_put_of_ne _ differ⟩

/-- A file has a name. -/
theorem target_ne_nil {tree : FileTree} {cwd location : Location} {text : String}
    (found : tree.target cwd text = .ok location) : location ≠ [] := by
  rw [target] at found
  split at found
  · cases found
  · cases found
  · cases found
  · split at found
    · cases found
    · split at found
      · cases found
      · cases found
        exact List.append_ne_nil_of_right_ne_nil _ (List.cons_ne_nil _ _)

end FileTree

namespace World

variable {w : World}

/-- With a working standard output only failures end in a status other than zero, and a failure
leaves no trace but its report. -/
theorem finish_unchanged (working : w.output = .working) (log : String) (ending : Ending)
    (failed : (w.finish log ending).status ≠ 0) :
    (w.finish log ending).tree = w.tree ∧ (w.finish log ending).output = "" := by
  cases ending with
  | failure f => exact ⟨rfl, rfl⟩
  | lines text =>
    rw [finish, print, working] at failed
    exact absurd rfl failed
  | stream protocol =>
    rw [finish, writeOutput, working] at failed
    exact absurd rfl failed
  | file location protocol line =>
    rw [finish, print, working] at failed
    exact absurd rfl failed

theorem finish_stream (working : w.output = .working) (log protocol : String) :
    w.finish log (.stream protocol) = ⟨0, protocol, log, w.tree⟩ := by
  rw [finish, writeOutput, working]
  rfl

theorem finish_file (working : w.output = .working) (log : String) {location : Location}
    (below : location ≠ []) (protocol line : String) :
    (w.finish log (.file location protocol line)).status = 0 ∧
      w.tree.Wrote (w.finish log (.file location protocol line)).tree location
        (Text.bytes protocol) := by
  rw [finish, print, working]
  exact ⟨rfl, w.tree.put_wrote below (Text.bytes protocol)⟩

/-- A run that ends in 0 has converted something and found a place for it. -/
theorem exists_of_status_zero {arguments : List (List UInt8)} {a : Arguments}
    (request : Request.ofArguments arguments = .ok (.convert a))
    (succeeded : (w.run arguments).status = 0) :
    ∃ protocol, w.conversion a = .ok protocol ∧
      (isStream a.output = true ∨ ∃ location, w.tree.target w.cwd a.output = .ok location) := by
  obtain ⟨log, run⟩ := exists_run_eq w arguments
  rw [run] at succeeded
  have reported : ∀ f, w.ending arguments ≠ .failure f := by
    intro f failed
    rw [failed] at succeeded
    cases f <;> cases succeeded
  have decides := (w.decides_iff arguments _).mpr rfl
  generalize w.ending arguments = e at decides reported
  cases decides with
  | refused | unconverted | unwritable => exact absurd rfl (reported _)
  | help other | version other =>
    rw [other] at request
    cases request
  | stream other converted stream =>
    cases other.symm.trans request
    exact ⟨_, converted, .inl stream⟩
  | file other converted named found =>
    cases other.symm.trans request
    exact ⟨_, converted, .inr ⟨_, found⟩⟩

/-- Delivery is all or nothing. A run that fails before it writes changes no file and prints
nothing to standard output. One that converts its input, as it was before the run, writes the
protocol to the one file that was named, or to standard output, and does nothing else. -/
theorem delivers_all_or_nothing (w : World) (arguments : List (List UInt8))
    (working : w.output = .working) :
    ((w.run arguments).status ∈ [2, 3, 4, 6] →
      (w.run arguments).tree = w.tree ∧ (w.run arguments).output = "") ∧
    ∀ a, Request.ofArguments arguments = .ok (.convert a) →
      (∀ source protocol, w.source? a.input = some source →
        (Converter.mk a.policy).convert source a.sourceName = .ok protocol →
        (isStream a.output = true → (w.run arguments).status = 0 ∧
          (w.run arguments).output = protocol ∧ (w.run arguments).tree = w.tree) ∧
        ∀ location, isStream a.output = false → w.tree.target w.cwd a.output = .ok location →
          (w.run arguments).status = 0 ∧
            w.tree.Wrote (w.run arguments).tree location (Text.bytes protocol)) ∧
      ((w.run arguments).status = 0 → ∃ source protocol, w.source? a.input = some source ∧
        (Converter.mk a.policy).convert source a.sourceName = .ok protocol ∧
        (isStream a.output = true ∨
          ∃ location, w.tree.target w.cwd a.output = .ok location)) := by
  obtain ⟨log, run⟩ := exists_run_eq w arguments
  refine ⟨?_, ?_⟩
  · intro failed
    rw [run] at failed ⊢
    apply finish_unchanged working
    intro zero
    rw [zero] at failed
    exact absurd failed (by decide)
  · intro a request
    refine ⟨?_, ?_⟩
    · intro source protocol given converts
      have converted : w.conversion a = .ok protocol := by
        rw [conversion_of_source given, converts]
      rw [run, ending_of_conversion request converted, destination]
      refine ⟨?_, ?_⟩
      · intro stream
        rw [if_pos stream, finish_stream working]
        exact ⟨rfl, rfl, rfl⟩
      · intro location noStream found
        rw [noStream, found]
        exact finish_file working log (FileTree.target_ne_nil found) protocol _
    · intro succeeded
      obtain ⟨protocol, converted, placed⟩ := exists_of_status_zero request succeeded
      obtain ⟨source, given, converts⟩ := (conversion_eq_ok_iff protocol).mp converted
      exact ⟨source, protocol, given, converts, placed⟩

/-- The schema and its protocol go by the same name. -/
def inPlace : World :=
  ⟨⟨[(["a"], .file (Text.bytes Schema.nestedSource))]⟩, [], [], .working, none, .inThread 1⟩

theorem inPlace_is_replaced :
    inPlace.output = .working ∧
      inPlace.source? "./a" = some Schema.nestedSource ∧
      (Converter.mk .deduplicate).convert Schema.nestedSource "./a" =
        .ok Schema.nested.render ∧
      inPlace.tree.target inPlace.cwd "a" = .ok ["a"] ∧
      (inPlace.run [Text.bytes "./a", Text.bytes "a"]).status = 0 ∧
      inPlace.tree.Wrote (inPlace.run [Text.bytes "./a", Text.bytes "a"]).tree ["a"]
        (Text.bytes Schema.nested.render) := by
  have request : Request.ofArguments [Text.bytes "./a", Text.bytes "a"] =
      .ok (.convert ⟨"./a", "a", .deduplicate⟩) := by decide +kernel
  have given : inPlace.source? "./a" = some Schema.nestedSource := by
    have read : inPlace.contents "./a" = .ok (Text.bytes Schema.nestedSource) := rfl
    rw [source?, read, textOf, Except.bind, Text.ofBytes?_bytes]
    rfl
  have converts : (Converter.mk .deduplicate).convert Schema.nestedSource "./a" =
      .ok Schema.nested.render := by
    rw [Converter.convert_of_load, Schema.load_nestedSource]
    rfl
  have found : inPlace.tree.target inPlace.cwd "a" = .ok ["a"] := rfl
  have delivered := (delivers_all_or_nothing inPlace [Text.bytes "./a", Text.bytes "a"] rfl).2
    ⟨"./a", "a", .deduplicate⟩ request
  exact ⟨rfl, given, converts, found,
    (delivered.1 Schema.nestedSource Schema.nested.render given converts).2 ["a"] rfl found⟩

end World

end AvroIdl.Command
