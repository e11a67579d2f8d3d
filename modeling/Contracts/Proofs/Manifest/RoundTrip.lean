import Contracts.Proofs.Json.Tree
import Contracts.Proofs.Manifest.Spelling

/-! # Contracts Survive Being Written as JSON

  What is written as JSON is read back as it was, from the text and from the tree. The two visits
  differ: a text has the fields in the order in which they were written, and a tree in the order of
  the keys. A contract is read back in either order.

  From that follows the rest of `RoundTrips`: different values have different texts, and decoding a
  text and encoding the value again comes to rest after one time.
-/

namespace Contracts

/-! ### What Survives Being Written -/

namespace Json

section

variable {α : Type}

/-- Reads a value from a text and writes it as a text again. -/
def normalize (toDatum : α → Datum) (ofDatum : Format → Datum → Except Mismatch α)
    (text : String) : Except Mismatch String :=
  return write (toDatum (← decode ofDatum text))

/-- Values of a type survive being written as JSON. -/
structure RoundTrips (toDatum : α → Datum) (ofDatum : Format → Datum → Except Mismatch α) :
    Prop where
  /-- A value is read back from its text. -/
  decode_write (a : α) : decode ofDatum (write (toDatum a)) = .ok a
  /-- A value is read back from its tree, where fields come in the order of their keys. -/
  ofDatum_canonical (a : α) : ofDatum .jsonTree (toDatum a).canonical = .ok a
  /-- Different values have different texts. -/
  write_inj {a b : α} (h : write (toDatum a) = write (toDatum b)) : a = b
  /-- A text that was written anew does not change when it is written anew. -/
  normalize_idem {text anew : String} (h : normalize toDatum ofDatum text = .ok anew) :
    normalize toDatum ofDatum anew = .ok anew

/-- Reading the data in both orders is all there is to show. -/
theorem RoundTrips.of_ofDatum {toDatum : α → Datum}
    {ofDatum : Format → Datum → Except Mismatch α} (hplain : ∀ a, Plain (toDatum a))
    (htext : ∀ a, ofDatum .jsonText (toDatum a) = .ok a)
    (htree : ∀ a, ofDatum .jsonTree (toDatum a).canonical = .ok a) :
    RoundTrips toDatum ofDatum := by
  have hdecode : ∀ a, decode ofDatum (write (toDatum a)) = .ok a := by
    intro a
    rw [(hplain a).decode_write, htext]
  refine ⟨hdecode, htree, ?_, ?_⟩
  · intro a b h
    have ha := hdecode a
    rw [h, hdecode b] at ha
    cases ha
    rfl
  · intro text anew h
    obtain ⟨a, -, hanew⟩ := bind_eq_ok_iff.1 h
    cases hanew
    unfold normalize
    rw [hdecode]
    rfl

end

end Json

/-! ### Trees in the Order of Their Keys -/

/-- The keys of a signature in order: the arguments come before the name. -/
theorem Signature.canonical_toDatum (s : Signature) :
    s.toDatum.canonical = .object
      [("argTypes", .list (s.args.map Label.toDatum)),
        ("methodName", .text s.name),
        ("retType", s.ret.toDatum)] :=
  s.canonical_toDatumUnder .long

/-- The keys of an interface in order: the methods come before the name. -/
theorem Interface.canonical_toDatum (i : Interface) :
    i.toDatum.canonical = .object
      [("methods", .list (i.methods.map fun s => s.toDatum.canonical)),
        ("name", .text i.name)] := by
  rw [toDatum, canonical_object, List.map_map]
  rfl

/-! ### Texts -/

theorem Label.roundTrips : Json.RoundTrips Label.toDatum Label.ofDatum :=
  .of_ofDatum (fun a => .text a.text) (ofDatum_toDatum .jsonText) (ofDatum_toDatum .jsonTree)

theorem TypeName.roundTrips : Json.RoundTrips TypeName.toDatum TypeName.ofDatum :=
  .of_ofDatum (fun name => .text name.text) (fun _ => rfl) fun _ => rfl

theorem MemberKind.ofDatum_toDatum (f : Format) (kind : MemberKind) :
    ofDatum f kind.toDatum = .ok kind := by
  cases kind <;> rfl

theorem MemberKind.roundTrips : Json.RoundTrips MemberKind.toDatum MemberKind.ofDatum :=
  .of_ofDatum (fun kind => .text kind.word) (ofDatum_toDatum .jsonText) (ofDatum_toDatum .jsonTree)

/-! ### Records -/

namespace Signature

theorem plain (s : Signature) : Json.Plain s.toDatum := by
  refine .object fun e he => ?_
  simp only [List.mem_cons, List.not_mem_nil, or_false] at he
  rcases he with rfl | rfl | rfl
  · exact .text s.name
  · exact .list_map (fun a => .text a.text) s.args
  · exact .text s.ret.text

theorem roundTrips : Json.RoundTrips toDatum ofDatum :=
  .of_ofDatum plain (fun s => s.spelledAs_toDatum.ofDatum_eq .jsonText)
    fun s => s.spelledAs_toDatum.ofDatum_canonical .jsonTree

end Signature

namespace Interface

theorem plain (i : Interface) : Json.Plain i.toDatum := by
  refine .object fun e he => ?_
  simp only [List.mem_cons, List.not_mem_nil, or_false] at he
  rcases he with rfl | rfl
  · exact .text i.name
  · exact .list_map Signature.plain i.methods

theorem roundTrips : Json.RoundTrips toDatum ofDatum :=
  .of_ofDatum plain (fun i => i.spelledAs_toDatum.ofDatum_eq .jsonText)
    fun i => i.spelledAs_toDatum.ofDatum_canonical .jsonTree

end Interface

/-- **Contracts survive JSON.** Interfaces, signatures, labels, type names and kinds are read back
as they were written, whatever texts they hold and however many methods and arguments: from the
text, and from the tree, though there the arguments of a signature come before its name and the
methods of an interface before its name. So no two of a type have one text, and writing a text anew
changes it at most once. -/
theorem roundTrips_contracts :
    Json.RoundTrips Interface.toDatum Interface.ofDatum ∧
    Json.RoundTrips Signature.toDatum Signature.ofDatum ∧
    Json.RoundTrips Label.toDatum Label.ofDatum ∧
    Json.RoundTrips TypeName.toDatum TypeName.ofDatum ∧
    Json.RoundTrips MemberKind.toDatum MemberKind.ofDatum ∧
    (∀ i : Interface, i.toDatum.canonical = .object
      [("methods", .list (i.methods.map fun s => s.toDatum.canonical)),
        ("name", .text i.name)]) ∧
    ∀ s : Signature, s.toDatum.canonical = .object
      [("argTypes", .list (s.args.map Label.toDatum)),
        ("methodName", .text s.name),
        ("retType", s.ret.toDatum)] :=
  ⟨Interface.roundTrips, Signature.roundTrips, Label.roundTrips, TypeName.roundTrips,
    MemberKind.roundTrips, Interface.canonical_toDatum, Signature.canonical_toDatum⟩

example : Json.write (Signature.toDatum { name := "on\x01", ret := ⟨"\"é\""⟩ }) =
    "\x7b\"methodName\":\"on\\u0001\",\"argTypes\":[],\"retType\":\"\\\"é\\\"\"\x7d" := by
  decide +kernel

end Contracts
