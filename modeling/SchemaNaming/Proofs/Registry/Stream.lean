import Mathlib.Data.List.Basic
import SchemaNaming.Proofs.Config.Utf8
import SchemaNaming.Session.Basic

/-!
# What the fingerprint is taken of

The fingerprint of a registry is the digest of its `Registry.stream`, in which the names stand one
after another, each ended by a zero byte. This module says which sequences of names have the same
stream.

UTF-8 writes a character as a zero byte only if it is the zero character, so the stream is the text
of the names, each ended by a zero character (`Registry.stream_of_names`), and what can be read off
it are the `Registry.pieces` of the names between zero characters (`Registry.stream_eq_iff_pieces`).
A registry takes in a name with a zero character in it. Such a name looks like two, and then the
stream does not even show the order of the names (`Registry.stream_forgets_order`). Without such
names it shows the whole sequence, as every name is its own piece.
-/

namespace SchemaNaming

namespace Candidate

/-- The name under which a registry takes the candidate in. -/
def acceptedName? (shippedName : Value) : Candidate → Option String
  | absent => none
  | nameless _ => none
  | handler h => h.acceptedName?
  | shipped => (Handler.builtin shippedName).acceptedName?

end Candidate

namespace Session

/-- Offers the candidates to the registry, one after another. -/
def registerAll (s : Session) (cs : List Candidate) : Session := cs.foldl register s

end Session

namespace Registry

/-- The registry to which the candidates were offered, one after another, from the start. -/
def ofCandidates (shippedName : Value) (cs : List Candidate) : Registry :=
  (({ shippedName } : Session).registerAll cs).registry

/-- The names of the candidates that are taken in, in the order of the offers. -/
def acceptedNames (shippedName : Value) (cs : List Candidate) : List String :=
  cs.filterMap (Candidate.acceptedName? shippedName)

/-! ### The names of a registry -/

theorem names_enrol (serial : Nat) (r : Registry) (h : Handler) :
    (r.enrol serial h).1.names = r.names ++ (h.acceptedName?.map Value.text).toList := by
  unfold enrol
  cases h_name : h.acceptedName? with
  | none => exact (List.append_nil _).symm
  | some n =>
    have h_text : h.name = .text n := Handler.name_of_acceptedName? h_name
    unfold names
    rw [List.map_append, List.map_singleton, h_text]
    rfl

theorem names_offer (serial : Nat) (shippedName : Value) (r : Registry) (c : Candidate) :
    (r.offer serial shippedName c).1.names
      = r.names ++ ((c.acceptedName? shippedName).map Value.text).toList := by
  cases c with
  | absent => exact (List.append_nil _).symm
  | nameless t => exact (List.append_nil _).symm
  | handler h => exact names_enrol serial r h
  | shipped => exact names_enrol serial r (Handler.builtin shippedName)

theorem names_registerAll (s : Session) (cs : List Candidate) :
    (s.registerAll cs).registry.names
      = s.registry.names ++ (acceptedNames s.shippedName cs).map Value.text := by
  induction cs generalizing s with
  | nil => exact (List.append_nil _).symm
  | cons c cs ih =>
    have h_first : (s.register c).registry.names
        = s.registry.names ++ ((c.acceptedName? s.shippedName).map Value.text).toList :=
      names_offer s.nextSerial s.shippedName s.registry c
    change ((s.register c).registerAll cs).registry.names = _
    rw [ih, h_first, List.append_assoc]
    congr 1
    unfold acceptedNames
    rw [List.filterMap_cons]
    cases c.acceptedName? s.shippedName <;> rfl

/-- **The names of a registry** are those of the accepted candidates, in the order of the offers. -/
theorem names_ofCandidates (shippedName : Value) (cs : List Candidate) :
    (ofCandidates shippedName cs).names = (acceptedNames shippedName cs).map Value.text :=
  names_registerAll { shippedName } cs

/-! ### The stream as a text -/

/-- The names one after another, each ended by a zero character. -/
def spelled (ns : List String) : List Char := ns.flatMap fun n => n.toList ++ ['\x00']

theorem byteArray_toList (b : ByteArray) : b.toList = b.data.toList := by
  have h_loop : ∀ i acc, ByteArray.toList.loop b i acc = acc.reverse ++ b.data.toList.drop i := by
    intro i acc
    fun_induction ByteArray.toList.loop b i acc with
    | case1 i acc h_lt ih =>
      have h_len : i < b.data.toList.length := h_lt
      have h_get : b.get! i = b.data.toList[i] := getElem!_pos b.data i h_lt
      rw [ih, h_get, List.reverse_cons, List.append_assoc, List.drop_eq_getElem_cons h_len]
      rfl
    | case2 i acc h_lt =>
      rw [List.drop_eq_nil_of_le (Nat.le_of_not_lt h_lt), List.append_nil]
  exact h_loop 0 []

/-- The bytes of a text are its encoding. -/
theorem toUTF8_toList (s : String) : s.toUTF8.toList = Config.Utf8.encode s.toList := by
  have h_bytes : s.toUTF8 = (Config.Utf8.encode s.toList).toByteArray :=
    String.utf8Encode_toList.symm
  rw [byteArray_toList, h_bytes, List.toList_data_toByteArray]

/-- **The stream as a text.** -/
theorem stream_of_names {r : Registry} {ns : List String} (h : r.names = ns.map Value.text) :
    r.stream = .ok (Config.Utf8.encode (spelled ns)) := by
  induction r generalizing ns with
  | nil =>
    obtain rfl : ns = [] := List.map_eq_nil_iff.mp h.symm
    rfl
  | cons g r ih =>
    cases ns with
    | nil => cases h
    | cons n ns =>
      obtain ⟨h_name, h_rest⟩ := List.cons.inj h
      have h_zero : String.utf8EncodeChar '\x00' = [0] := by decide
      have h_spelled : Config.Utf8.encode (spelled (n :: ns))
          = Config.Utf8.encode n.toList ++ 0 :: Config.Utf8.encode (spelled ns) := by
        unfold spelled Config.Utf8.encode
        rw [List.flatMap_cons, List.flatMap_append, List.flatMap_append, List.flatMap_singleton,
          h_zero, List.append_assoc]
        rfl
      rw [stream, h_name, ih h_rest, h_spelled, ← toUTF8_toList]
      rfl

/-! ### What can be read off a stream -/

/-- The pieces of a name between its zero characters. A name without any is its only piece. -/
def pieces (n : String) : List (List Char) := n.toList.splitOn '\x00'

/-- Splitting a spelled text gives the pieces of its names. The last end has nothing behind it. -/
theorem splitOn_spelled (ns : List String) :
    (spelled ns).splitOn '\x00' = ns.flatMap pieces ++ [[]] := by
  induction ns with
  | nil => rfl
  | cons n ns ih =>
    have h_first : spelled (n :: ns) = n.toList ++ '\x00' :: spelled ns := by
      unfold spelled
      rw [List.flatMap_cons, List.append_assoc]
      rfl
    rw [h_first, List.splitOn_append_cons_self, ih, List.flatMap_cons, List.append_assoc]
    rfl

theorem spelled_eq_iff (ns ms : List String) :
    spelled ns = spelled ms ↔ ns.flatMap pieces = ms.flatMap pieces := by
  constructor
  · intro h
    have h_split := congrArg (List.splitOn '\x00') h
    rw [splitOn_spelled, splitOn_spelled] at h_split
    exact List.append_cancel_right h_split
  · -- a text is put together again from what it was split into
    intro h
    have h_split : (spelled ns).splitOn '\x00' = (spelled ms).splitOn '\x00' := by
      rw [splitOn_spelled, splitOn_spelled, h]
    calc spelled ns = ['\x00'].intercalate ((spelled ns).splitOn '\x00') :=
          (List.intercalate_splitOn '\x00').symm
      _ = ['\x00'].intercalate ((spelled ms).splitOn '\x00') := by rw [h_split]
      _ = spelled ms := List.intercalate_splitOn '\x00'

theorem flatMap_pieces_of_plain {ns : List String} (h : ∀ n ∈ ns, '\x00' ∉ n.toList) :
    ns.flatMap pieces = ns.map String.toList := by
  induction ns with
  | nil => rfl
  | cons n ns ih =>
    have h_piece : pieces n = [n.toList] := List.splitOn_eq_singleton (h n List.mem_cons_self)
    rw [List.flatMap_cons, h_piece, ih fun m hm => h m (List.mem_cons_of_mem n hm)]
    rfl

/-- Two registries have the same stream if their names have the same pieces, and only then. -/
theorem stream_eq_iff_pieces {r r' : Registry} {ns ms : List String}
    (h : r.names = ns.map Value.text) (h' : r'.names = ms.map Value.text) :
    r.stream = r'.stream ↔ ns.flatMap pieces = ms.flatMap pieces := by
  rw [stream_of_names h, stream_of_names h', Except.ok.injEq, ← spelled_eq_iff]
  exact ⟨Config.Utf8.encode_injective, congrArg Config.Utf8.encode⟩

/-- **What the stream tells.** A registry has a stream, whatever candidates it was offered. The
same names in the same order give the same stream, and the stream tells the pieces of the names. As
long as no accepted name holds a zero character it tells the names and their order. -/
theorem stream_eq_iff_names (shippedName shippedName' : Value) (cs ds : List Candidate) :
    (∃ bytes, (ofCandidates shippedName cs).stream = .ok bytes)
      ∧ (acceptedNames shippedName cs = acceptedNames shippedName' ds →
          (ofCandidates shippedName cs).stream = (ofCandidates shippedName' ds).stream)
      ∧ ((ofCandidates shippedName cs).stream = (ofCandidates shippedName' ds).stream
          ↔ (acceptedNames shippedName cs).flatMap pieces
            = (acceptedNames shippedName' ds).flatMap pieces)
      ∧ ((∀ n ∈ acceptedNames shippedName cs ++ acceptedNames shippedName' ds,
            '\x00' ∉ n.toList) →
          ((ofCandidates shippedName cs).stream = (ofCandidates shippedName' ds).stream
            ↔ acceptedNames shippedName cs = acceptedNames shippedName' ds)) := by
  have h_names := names_ofCandidates shippedName cs
  have h_names' := names_ofCandidates shippedName' ds
  have h_iff := stream_eq_iff_pieces h_names h_names'
  refine ⟨⟨_, stream_of_names h_names⟩, ?_, h_iff, ?_⟩
  · intro h_eq
    rw [h_iff, h_eq]
  · -- without zero characters the pieces are the names themselves
    intro h_plain
    rw [h_iff, flatMap_pieces_of_plain fun n hn => h_plain n (List.mem_append_left _ hn),
      flatMap_pieces_of_plain fun n hn => h_plain n (List.mem_append_right _ hn)]
    exact List.map_inj_right fun _ _ => String.toList_inj.mp

/-- Two handlers in either order, and a candidate without a name: the streams differ. -/
theorem stream_eq_iff_names_swapped :
    let cs : List Candidate :=
      [.handler (.idle (.text "a")), .nameless "dict", .handler (.idle (.text "b"))]
    let ds : List Candidate := [.handler (.idle (.text "b")), .handler (.idle (.text "a"))]
    (∀ n ∈ acceptedNames .null cs ++ acceptedNames .null ds, '\x00' ∉ n.toList)
      ∧ (ofCandidates .null cs).stream ≠ (ofCandidates .null ds).stream := by
  intro cs ds
  have h_cs : acceptedNames .null cs = ["a", "b"] := rfl
  have h_ds : acceptedNames .null ds = ["b", "a"] := rfl
  have h_plain : ∀ n ∈ acceptedNames .null cs ++ acceptedNames .null ds, '\x00' ∉ n.toList := by
    rw [h_cs, h_ds]
    decide
  refine ⟨h_plain, fun h_eq => ?_⟩
  have h_names := ((stream_eq_iff_names .null .null cs ds).2.2.2 h_plain).mp h_eq
  rw [h_cs, h_ds] at h_names
  exact absurd h_names (by decide)

/-- **The stream does not tell the order** of names that hold zero characters: of the names `a` and
`a`, zero, `a` either may come first. -/
theorem stream_forgets_order :
    ¬ ∀ cs ds : List Candidate,
        (ofCandidates .null cs).stream = (ofCandidates .null ds).stream
          ↔ acceptedNames .null cs = acceptedNames .null ds := by
  intro h_claim
  let a : Candidate := .handler (.idle (.text "a"))
  let twoAs : Candidate := .handler (.idle (.text "a\x00a"))
  have h_first : acceptedNames .null [a, twoAs] = ["a", "a\x00a"] := rfl
  have h_second : acceptedNames .null [twoAs, a] = ["a\x00a", "a"] := rfl
  have h_eq : (ofCandidates .null [a, twoAs]).stream = (ofCandidates .null [twoAs, a]).stream := by
    rw [stream_eq_iff_pieces (names_ofCandidates _ _) (names_ofCandidates _ _), h_first, h_second]
    decide
  have h_names := (h_claim [a, twoAs] [twoAs, a]).mp h_eq
  rw [h_first, h_second] at h_names
  exact absurd h_names (by decide)

end Registry

end SchemaNaming
