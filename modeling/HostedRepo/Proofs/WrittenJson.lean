import HostedRepo.Json.Shape
import HostedRepo.Proofs.JsonReading
import HostedRepo.Proofs.StateTriples
import HostedRepo.Proofs.WrittenStrings

/-!
# Written JSON is read back

The text of a value is a text of the tree of this value, so it is read as this tree, and different
values have different texts. A value is kept as a whole if it is not too deep.
-/

namespace HostedRepo

open Json Json.Node

namespace Json

/-! ### The bytes of a value -/

namespace Value

def bytes (v : Value) : Bytes := Text.Utf8.encode v.render

-- Quotes are 34, commas 44, colons 58, brackets 91 and 93, braces 123 and 125.

def itemBytes (items : List Value) : Bytes :=
  Text.Utf8.encode (",".intercalate (renderItems items))

def memberBytes (members : List (String × Value)) : Bytes :=
  Text.Utf8.encode (",".intercalate (renderMembers members))

/-- What stands between the quotes of a string. -/
def stringBytes (s : String) : Bytes :=
  Text.Utf8.encode (String.join (s.toList.map escapeChar))

lemma encode_stringText (s : String) :
    Text.Utf8.encode (stringText s) = 34 :: (stringBytes s ++ [34]) := by
  rw [stringText, Text.Utf8.encode_append, Text.Utf8.encode_append]
  rfl

lemma bytes_list (items : List Value) : bytes (.list items) = 91 :: (itemBytes items ++ [93]) := by
  rw [bytes, render, String.append_assoc, Text.Utf8.encode_append, Text.Utf8.encode_append]
  rfl

lemma bytes_object (members : List (String × Value)) :
    bytes (.object members) = 123 :: (memberBytes members ++ [125]) := by
  rw [bytes, render, String.append_assoc, Text.Utf8.encode_append, Text.Utf8.encode_append]
  rfl

lemma itemBytes_singleton (v : Value) : itemBytes [v] = bytes v := by
  rw [itemBytes, renderItems, renderItems, String.intercalate_singleton]
  rfl

lemma itemBytes_cons_cons (v w : Value) (vs : List Value) :
    itemBytes (v :: w :: vs) = bytes v ++ 44 :: itemBytes (w :: vs) := by
  rw [itemBytes, renderItems, renderItems, String.intercalate_cons_cons, ← renderItems,
    String.append_assoc, Text.Utf8.encode_append, Text.Utf8.encode_append]
  rfl

lemma encode_member (k : String) (v : Value) :
    Text.Utf8.encode (stringText k ++ ":" ++ render v) =
      34 :: (stringBytes k ++ 34 :: 58 :: bytes v) := by
  rw [String.append_assoc, Text.Utf8.encode_append, Text.Utf8.encode_append, encode_stringText,
    List.cons_append, List.append_assoc]
  rfl

lemma memberBytes_singleton (k : String) (v : Value) :
    memberBytes [(k, v)] = 34 :: (stringBytes k ++ 34 :: 58 :: bytes v) := by
  rw [memberBytes, renderMembers, renderMembers, String.intercalate_singleton, encode_member]

lemma memberBytes_cons_cons (k : String) (v : Value) (m : String × Value)
    (ms : List (String × Value)) : memberBytes ((k, v) :: m :: ms) =
      34 :: (stringBytes k ++ 34 :: 58 :: (bytes v ++ 44 :: memberBytes (m :: ms))) := by
  rw [memberBytes, renderMembers, renderMembers, String.intercalate_cons_cons, ← renderMembers,
    String.append_assoc, Text.Utf8.encode_append, encode_member, Text.Utf8.encode_append ",",
    List.cons_append, List.append_assoc]
  rfl

mutual

/-- The tree of a value. -/
def node : Value → Node
  | .flag b => .flag b
  | .text s => .string ⟨.ok s, none⟩
  | .list items => .array (nodes items) none
  | .object members => .object (memberNodes members) none

def nodes : List Value → List Node
  | [] => []
  | v :: vs => node v :: nodes vs

def memberNodes : List (String × Value) → List (Leaf String × Node)
  | [] => []
  | (k, v) :: ms => (⟨.ok k, none⟩, node v) :: memberNodes ms

end

/-! ### Reading -/

lemma written_member {n : Node} {w : Bytes} (k : String) (h : Written (.value n) w) :
    Written (.members [(⟨.ok k, none⟩, n)]) (34 :: (stringBytes k ++ 34 :: 58 :: w)) := by
  obtain ⟨ps, htext, hleaf⟩ := exists_stringText k
  rw [← hleaf, ← List.append_nil w]
  exact .member blank_nil htext blank_nil blank_nil h blank_nil

lemma written_members {n : Node} {ms : List (Leaf String × Node)} {w more : Bytes} (k : String)
    (h : Written (.value n) w) (hmore : Written (.members ms) more) :
    Written (.members ((⟨.ok k, none⟩, n) :: ms))
      (34 :: (stringBytes k ++ 34 :: 58 :: (w ++ 44 :: more))) := by
  obtain ⟨ps, htext, hleaf⟩ := exists_stringText k
  rw [← hleaf]
  exact .members blank_nil htext blank_nil blank_nil h blank_nil hmore

mutual

lemma written : ∀ v : Value, Written (.value v.node) (bytes v)
  | .flag true => .yes
  | .flag false => .no
  | .text s => by
    obtain ⟨ps, htext, hleaf⟩ := exists_stringText s
    rw [show bytes (.text s) = _ from encode_stringText s, node, ← hleaf]
    exact .string htext
  | .list [] => .emptyArray blank_nil
  | .list (v :: vs) => by
    rw [bytes_list, node]
    exact .array (writtenItems (v :: vs) (List.cons_ne_nil _ _))
  | .object [] => .emptyObject blank_nil
  | .object ((k, v) :: ms) => by
    rw [bytes_object, node]
    exact .object (writtenMembers ((k, v) :: ms) (List.cons_ne_nil _ _))

lemma writtenItems : ∀ vs : List Value, vs ≠ [] → Written (.items (nodes vs)) (itemBytes vs)
  | [], h => absurd rfl h
  | [v], _ => by
    rw [itemBytes_singleton, ← List.append_nil (bytes v)]
    exact .item blank_nil (written v) blank_nil
  | v :: w :: vs, _ => by
    rw [itemBytes_cons_cons]
    exact .items blank_nil (written v) blank_nil (writtenItems (w :: vs) (List.cons_ne_nil _ _))

lemma writtenMembers : ∀ ms : List (String × Value), ms ≠ [] →
    Written (.members (memberNodes ms)) (memberBytes ms)
  | [], h => absurd rfl h
  | [(k, v)], _ => by
    rw [memberBytes_singleton]
    exact written_member k (written v)
  | (k, v) :: m :: ms, _ => by
    rw [memberBytes_cons_cons]
    exact written_members k (written v) (writtenMembers (m :: ms) (List.cons_ne_nil _ _))

end

end Value

namespace Node

open Value

/-- The text of a value is read as the tree of this value, and nothing is left of it. -/
theorem ofBytes_bytes (v : Value) : ofBytes (bytes v) = (v.node, none) :=
  v.written.isText.ofBytes_eq

lemma whole_eq_ok_iff {bs : Bytes} {n : Node} :
    whole bs = .ok n ↔ ofBytes bs = (n, none) ∧ keep depthLimit n = .ok () := by
  constructor
  · intro h
    unfold whole at h
    obtain ⟨⟨⟩, hkept, hrest⟩ := bind_eq_ok h
    split at hrest
    · next htrailing =>
      cases hrest
      exact ⟨Prod.ext rfl htrailing, hkept⟩
    · cases hrest
  · rintro ⟨hread, hkept⟩
    unfold whole
    rw [hread]
    dsimp only
    rw [hkept]
    rfl

end Node

namespace Value

mutual

lemma node_inj : ∀ {v w : Value}, v.node = w.node → v = w
  | .flag b, w, h => by
    cases w with
    | flag c =>
      cases h
      rfl
    | _ => cases h
  | .text s, w, h => by
    cases w with
    | text t =>
      cases h
      rfl
    | _ => cases h
  | .list vs, w, h => by
    cases w with
    | list ws => rw [nodes_inj (Node.array.inj h).1]
    | _ => cases h
  | .object ms, w, h => by
    cases w with
    | object ns => rw [memberNodes_inj (Node.object.inj h).1]
    | _ => cases h

lemma nodes_inj : ∀ {vs ws : List Value}, nodes vs = nodes ws → vs = ws
  | [], ws, h => by
    cases ws with
    | nil => rfl
    | cons w ws => cases h
  | v :: vs, ws, h => by
    cases ws with
    | nil => cases h
    | cons w ws =>
      obtain ⟨hhead, htail⟩ := List.cons.inj h
      rw [node_inj hhead, nodes_inj htail]

lemma memberNodes_inj : ∀ {ms ns : List (String × Value)}, memberNodes ms = memberNodes ns → ms = ns
  | [], ns, h => by
    cases ns with
    | nil => rfl
    | cons n ns => cases h
  | (k, v) :: ms, ns, h => by
    cases ns with
    | nil => cases h
    | cons n ns =>
      obtain ⟨hhead, htail⟩ := List.cons.inj h
      obtain ⟨hkey, hvalue⟩ := Prod.mk.inj hhead
      rw [show k = n.1 from Except.ok.inj (Leaf.mk.inj hkey).1, node_inj hvalue,
        memberNodes_inj htail]

end

/-- Different values have different texts. -/
theorem render_inj {v w : Value} : v.render = w.render ↔ v = w := by
  refine ⟨fun h => ?_, fun h => by rw [h]⟩
  have hbytes : bytes v = bytes w := congrArg Text.Utf8.encode h
  have hv := Node.ofBytes_bytes v
  rw [hbytes, Node.ofBytes_bytes] at hv
  exact node_inj (congrArg Prod.fst hv).symm

/-! ### Values kept as a whole -/

mutual

/-- How deep lists and objects stand within each other in a value. -/
def depth : Value → Nat
  | .flag _ | .text _ => 0
  | .list items => itemDepth items + 1
  | .object members => memberDepth members + 1

def itemDepth : List Value → Nat
  | [] => 0
  | v :: vs => max (depth v) (itemDepth vs)

def memberDepth : List (String × Value) → Nat
  | [] => 0
  | (_, v) :: ms => max (depth v) (memberDepth ms)

end

mutual

lemma keep_node : ∀ (v : Value) {d : Nat}, depth v ≤ d → v.node.keep d = .ok ()
  | .flag _, _, _ => by rw [node, Node.keep]
  | .text _, _, _ => by
    rw [node, Node.keep]
    rfl
  | .list items, d, h => by
    obtain ⟨d, rfl⟩ := Nat.exists_eq_add_one_of_ne_zero (Nat.ne_zero_of_lt h)
    rw [node, Node.keep, keepItems_nodes items (Nat.le_of_succ_le_succ h)]
    rfl
  | .object members, d, h => by
    obtain ⟨d, rfl⟩ := Nat.exists_eq_add_one_of_ne_zero (Nat.ne_zero_of_lt h)
    rw [node, Node.keep, keepMembers_memberNodes members (Nat.le_of_succ_le_succ h)]
    rfl

lemma keepItems_nodes : ∀ (vs : List Value) {d : Nat}, itemDepth vs ≤ d →
    Node.keepItems d (nodes vs) = .ok ()
  | [], _, _ => by rw [nodes, Node.keepItems]
  | v :: vs, _, h => by
    obtain ⟨hhead, htail⟩ := max_le_iff.mp h
    rw [nodes, Node.keepItems, keep_node v hhead, Except.bind, keepItems_nodes vs htail]

lemma keepMembers_memberNodes : ∀ (ms : List (String × Value)) {d : Nat}, memberDepth ms ≤ d →
    Node.keepMembers d (memberNodes ms) = .ok ()
  | [], _, _ => by rw [memberNodes, Node.keepMembers]
  | (_, v) :: ms, _, h => by
    obtain ⟨hhead, htail⟩ := max_le_iff.mp h
    rw [memberNodes, Node.keepMembers, Except.bind, keep_node v hhead, Except.bind,
      keepMembers_memberNodes ms htail]

end

theorem whole_bytes {v : Value} (h : v.depth ≤ Node.depthLimit) :
    Node.whole v.bytes = .ok v.node :=
  Node.whole_eq_ok_iff.mpr ⟨Node.ofBytes_bytes v, keep_node v h⟩

end Value
end Json
end HostedRepo
