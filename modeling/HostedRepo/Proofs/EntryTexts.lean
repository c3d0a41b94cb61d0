import HostedRepo.Proofs.RecordFields
import HostedRepo.Proofs.WrittenJson
import HostedRepo.Remote.Format

/-!
# The texts of tree entries

What a request for a new tree says about an entry is read, in the list of a tree, as an entry with
the same path, mode, kind and object id. The content of a file is a string that is read back as it
was, and two entries that are not equal have different texts.
-/

namespace HostedRepo

open Json

namespace NewEntry

/-- The text of an entry in a request. -/
def text (e : NewEntry) : String := e.toValue.render

/-- What an entry says about itself apart from its content. -/
def described (e : NewEntry) : TreeEntry := ⟨e.path, e.mode, e.kind, e.sha, none⟩

/-- The values of the fields that the entry of a tree is read by. -/
def row (e : NewEntry) : TreeEntry.shape.Val := (e.path, e.mode, e.kind, e.sha, none, ())

/-! ### One entry -/

lemma decode_node (e : NewEntry) : TreeEntry.shape.decode e.toValue.node = .ok e.row := by
  obtain ⟨path, mode, kind, sha, content⟩ := e
  cases sha <;> cases content <;> rfl

lemma exists_members (e : NewEntry) : ∃ members, e.toValue.node = .object members none ∧
    named "content" members = e.content.toList.map fun s => .string ⟨.ok s, none⟩ := by
  obtain ⟨path, mode, kind, sha, content⟩ := e
  cases sha <;> cases content <;> exact ⟨_, rfl, rfl⟩

lemma depth_toValue (e : NewEntry) : e.toValue.depth ≤ Node.depthLimit := by
  obtain ⟨path, mode, kind, sha, content⟩ := e
  cases sha <;> cases content <;> exact Nat.succ_le_succ (Nat.zero_le _)

lemma ofBytes_text (e : NewEntry) :
    Node.ofBytes (Text.Utf8.encode e.text) = (e.toValue.node, none) :=
  Node.ofBytes_bytes e.toValue

lemma shape_ofBytes_text (e : NewEntry) :
    (TreeEntry.shape.ofBytes (Text.Utf8.encode e.text)).map TreeEntry.ofVal = .ok e.described := by
  unfold Shape.ofBytes
  rw [ofBytes_text]
  simp only [decode_node]
  rfl

lemma eq_of_text_eq {a b : NewEntry} (h : a.text = b.text) : a = b := by
  have hvalue : a.toValue = b.toValue := Value.render_inj.mp h
  have hrow := decode_node a
  rw [hvalue, decode_node] at hrow
  obtain ⟨ms, hms, hcontent⟩ := exists_members a
  obtain ⟨ns, hns, hcontent'⟩ := exists_members b
  obtain rfl : ms = ns := by
    rw [hvalue, hns] at hms
    exact (Node.object.inj hms).1.symm
  rw [hcontent'] at hcontent
  obtain ⟨path, mode, kind, sha, content⟩ := a
  obtain ⟨path', mode', kind', sha', content'⟩ := b
  cases hrow
  cases content <;> cases content' <;> cases hcontent <;> rfl

/-! ### The entries of a tree -/

lemma decode_nodes (es : List NewEntry) :
    (Value.nodes (es.map toValue)).mapM TreeEntry.shape.decode = .ok (es.map row) := by
  induction es with
  | nil => rfl
  | cons e es ih =>
    rw [List.map_cons, Value.nodes, List.mapM_cons, decode_node, ih]
    rfl

end NewEntry

namespace Tree

/-- The text of a tree, with its entries given by their texts. -/
def text (sha : String) (entries : List String) (truncated : Bool) : String :=
  "\x7b\"sha\":" ++ Value.stringText sha ++ ",\"tree\":[" ++ ",".intercalate entries ++
    "],\"truncated\":" ++ (if truncated then "true" else "false") ++ "\x7d"

def textValue (sha : String) (es : List NewEntry) (truncated : Bool) : Value :=
  .object [("sha", .text sha), ("tree", .list (es.map NewEntry.toValue)),
    ("truncated", .flag truncated)]

lemma text_eq (sha : String) (es : List NewEntry) (truncated : Bool) :
    text sha (es.map NewEntry.text) truncated = (textValue sha es truncated).render := by
  have hitems : Value.renderItems (es.map NewEntry.toValue) = es.map NewEntry.text := by
    induction es with
    | nil => rfl
    | cons e es ih =>
      rw [List.map_cons, Value.renderItems, ih]
      rfl
  have hsha : "\x7b\"sha\":" = "\x7b" ++ (Value.stringText "sha" ++ ":") := by decide +kernel
  have htree : ",\"tree\":[" = "," ++ (Value.stringText "tree" ++ (":" ++ "[")) := by
    decide +kernel
  have htruncated : "],\"truncated\":" = "]" ++ ("," ++ (Value.stringText "truncated" ++ ":")) := by
    decide +kernel
  rw [text, hsha, htree, htruncated]
  simp only [textValue, Value.render, Value.renderMembers, hitems, String.intercalate_cons_cons,
    String.intercalate_singleton, String.append_assoc]

lemma decode_textValue (sha : String) (es : List NewEntry) (truncated : Bool) :
    shape.decode (textValue sha es truncated).node =
      .ok (sha, es.map NewEntry.row, truncated, ()) := by
  have hentries : (Shape.list TreeEntry.shape).decode
      (.array (Value.nodes (es.map NewEntry.toValue)) none) = .ok (es.map NewEntry.row) := by
    change ((Value.nodes (es.map NewEntry.toValue)).mapM TreeEntry.shape.decode >>= _) = _
    rw [NewEntry.decode_nodes]
    rfl
  change ((((Shape.list TreeEntry.shape).decode
    (.array (Value.nodes (es.map NewEntry.toValue)) none)).map _).map _ >>= fun _ => _) >>= _ = _
  rw [hentries]
  rfl

lemma shape_ofBytes_text (sha : String) (es : List NewEntry) (truncated : Bool) :
    (shape.ofBytes (Text.Utf8.encode (text sha (es.map NewEntry.text) truncated))).map ofVal =
      .ok ⟨sha, es.map NewEntry.described, truncated⟩ := by
  have hread := Node.ofBytes_bytes (textValue sha es truncated)
  unfold Value.bytes at hread
  rw [← text_eq] at hread
  unfold Shape.ofBytes
  rw [hread]
  simp only [decode_textValue]
  change Except.ok (Tree.mk sha ((es.map NewEntry.row).map TreeEntry.ofVal) truncated) = _
  rw [List.map_map]
  rfl

end Tree

namespace NewEntry

/-- An entry that is carried over, put anywhere into the list of a tree, is read out of it as it was
but for its size. The text of a file is read as an entry of a regular file without an object id, and
its content is one string that is read as it was written. No two entries have the same text. -/
theorem text_reads_back :
    (∀ sha (before : List NewEntry) (e : TreeEntry) (after : List NewEntry) truncated,
      (Tree.shape.ofBytes (Text.Utf8.encode (Tree.text sha
        (before.map text ++ (existing e).text :: after.map text) truncated))).map Tree.ofVal =
      .ok ⟨sha, before.map described ++ { e with size := none } :: after.map described,
        truncated⟩) ∧
    (∀ path content,
      (TreeEntry.shape.ofBytes (Text.Utf8.encode (blob path content).text)).map TreeEntry.ofVal =
        .ok ⟨path, "100644", "blob", none, none⟩ ∧
      ∃ members x, Node.whole (Text.Utf8.encode (blob path content).text) =
        .ok (.object members none) ∧
        named "content" members = [x] ∧ Shape.text.decode x = .ok content) ∧
    ∀ a b : NewEntry, a.text = b.text ↔ a = b := by
  refine ⟨fun sha before e after truncated => ?_, fun path content => ⟨?_, ?_⟩, fun a b => ?_⟩
  · have htree := Tree.shape_ofBytes_text sha (before ++ existing e :: after) truncated
    rw [List.map_append, List.map_cons, List.map_append, List.map_cons] at htree
    exact htree
  · exact shape_ofBytes_text (blob path content)
  · obtain ⟨members, hmembers, hcontent⟩ := exists_members (blob path content)
    have hwhole := Value.whole_bytes (depth_toValue (blob path content))
    rw [hmembers] at hwhole
    exact ⟨members, _, hwhole, hcontent, rfl⟩
  · exact ⟨eq_of_text_eq, fun h => by rw [h]⟩

end NewEntry
end HostedRepo
