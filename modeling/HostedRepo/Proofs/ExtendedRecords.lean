import HostedRepo.Proofs.RecordFields
import HostedRepo.Proofs.WrittenJson
import HostedRepo.Remote.Format
import Mathlib.Data.List.Perm.Basic
import Mathlib.Logic.Relation

/-!
# Answers that the remote side extends

The members of a record may stand in another order, there may be more of them than the record has
fields, and null may be left out where a field can do without. Decoding gives the same value for
every text that is changed in these ways, in any of the objects that it reads.
-/

namespace HostedRepo

open Json

namespace Json

namespace Fields

/-- The names that a record reads. -/
def names : Fields → List String
  | .nil => []
  | .cons name _ _ rest => name :: rest.names

/-! ### Members and their order -/

lemma put_unknown {name : String} {n : Node} (hn : n.passed = none) :
    ∀ {fs : Fields}, name ∉ fs.names → ∀ slots : fs.Slots, fs.put slots name n = .ok slots
  | .nil, _, _ => by
    rw [put, hn]
    rfl
  | .cons _ _ _ _, hname, (_, slots) => by
    obtain ⟨hne, hname⟩ := not_or.mp (mt List.mem_cons.mpr hname)
    exact put_cons_eq_ok.mpr (.inr ⟨hne, slots, put_unknown hn hname slots, rfl⟩)

lemma put_comm {k k' : String} {n n' : Node} : ∀ {fs : Fields} {slots slots₁ slots₂ : fs.Slots},
    fs.put slots k n = .ok slots₁ → fs.put slots₁ k' n' = .ok slots₂ →
      ∃ slots₁', fs.put slots k' n' = .ok slots₁' ∧ fs.put slots₁' k n = .ok slots₂
  | .nil, _, _, _, h, h' => ⟨(), h', h⟩
  | .cons _ _ _ _, (slot, slots), _, _, h, h' => by
    obtain ⟨hk, rfl, v, hv, rfl⟩ | ⟨hk, left, hleft, rfl⟩ := put_cons_eq_ok.mp h
    · obtain ⟨-, hslot, -⟩ | ⟨hk', left, hleft, rfl⟩ := put_cons_eq_ok.mp h'
      · cases hslot
      · exact ⟨(none, left), put_cons_eq_ok.mpr (.inr ⟨hk', left, hleft, rfl⟩),
          put_cons_eq_ok.mpr (.inl ⟨hk, rfl, v, hv, rfl⟩)⟩
    · obtain ⟨hk', rfl, v, hv, rfl⟩ | ⟨hk', left', hleft', rfl⟩ := put_cons_eq_ok.mp h'
      · exact ⟨(some v, slots), put_cons_eq_ok.mpr (.inl ⟨hk', rfl, v, hv, rfl⟩),
          put_cons_eq_ok.mpr (.inr ⟨hk, left, hleft, rfl⟩)⟩
      · obtain ⟨left₁, hleft₁, hleft₂⟩ := put_comm hleft hleft'
        exact ⟨(slot, left₁), put_cons_eq_ok.mpr (.inr ⟨hk', left₁, hleft₁, rfl⟩),
          put_cons_eq_ok.mpr (.inr ⟨hk, left', hleft₂, rfl⟩)⟩

section

variable {name : String} {s : Shape} {defaulted : Bool} {fs : Fields}

lemma foldlM_readMember_perm {ms ms' : List (Leaf String × Node)} (hperm : ms.Perm ms')
    {slots slots' : fs.Slots} (h : ms.foldlM fs.readMember slots = .ok slots') :
    ms'.foldlM fs.readMember slots = .ok slots' := by
  induction hperm generalizing slots slots' with
  | nil => exact h
  | cons m _ ih =>
    rw [List.foldlM_cons] at h ⊢
    obtain ⟨next, hnext, hrest⟩ := bind_eq_ok h
    rw [hnext]
    exact ih hrest
  | swap m m' ms =>
    rw [List.foldlM_cons] at h
    obtain ⟨slots₁, h₁, h⟩ := bind_eq_ok h
    rw [List.foldlM_cons] at h
    obtain ⟨slots₂, h₂, hrest⟩ := bind_eq_ok h
    obtain ⟨key, hkey, hput⟩ := readMember_eq_ok h₁
    obtain ⟨key', hkey', hput'⟩ := readMember_eq_ok h₂
    obtain ⟨slots₁', hfirst, hsecond⟩ := put_comm hput hput'
    rw [List.foldlM_cons, readMember_kept hkey', hfirst]
    change List.foldlM fs.readMember slots₁' (m' :: ms) = _
    rw [List.foldlM_cons, readMember_kept hkey, hsecond]
    exact hrest
  | trans _ _ ih₁ ih₂ => exact ih₂ (ih₁ h)

namespace Place

lemma put_congr (p : Place name s defaulted fs) {n n' : Node}
    (hn : ∀ v, s.decode n = .ok v → s.decode n' = .ok v) {slots slots' : fs.Slots}
    (h : fs.put slots name n = .ok slots') : fs.put slots name n' = .ok slots' := by
  induction p with
  | first rest =>
    obtain ⟨slot, slots⟩ := slots
    obtain ⟨hname, hslot, v, hv, hslots⟩ | ⟨hne, -⟩ := put_cons_eq_ok.mp h
    · exact put_cons_eq_ok.mpr (.inl ⟨hname, hslot, v, hn v hv, hslots⟩)
    · exact absurd rfl hne
  | after hne p ih =>
    obtain ⟨slot, slots⟩ := slots
    obtain ⟨hname, -⟩ | ⟨hname, left, hleft, hslots⟩ := put_cons_eq_ok.mp h
    · exact absurd hname.symm hne
    · exact put_cons_eq_ok.mpr (.inr ⟨hname, left, ih hleft, hslots⟩)

/-- A null that is read for an optional field does as well as nothing. -/
lemma complete_put_null (p : Place name s.option defaulted fs) {slots slots' : fs.Slots}
    (h : fs.put slots name .null = .ok slots') : fs.complete slots' = fs.complete slots := by
  induction p with
  | first rest =>
    obtain ⟨slot, slots⟩ := slots
    obtain ⟨-, rfl, v, hv, rfl⟩ | ⟨hne, -⟩ := put_cons_eq_ok.mp h
    · cases hv
      rfl
    · exact absurd rfl hne
  | after hne p ih =>
    obtain ⟨slot, slots⟩ := slots
    obtain ⟨hname, -⟩ | ⟨-, left, hleft, rfl⟩ := put_cons_eq_ok.mp h
    · exact absurd hname.symm hne
    · rw [complete, complete, ih hleft]

end Place
end
end Fields

/-! ### Changes -/

/-- One change to a tree that is read by a shape. What is said of the first member of an object
holds of every one, as members may change places. -/
inductive Shape.Change : Shape → Node → Node → Prop
  /-- The members stand in another order. -/
  | permuted {title : String} {fs : Fields} {ms ms' : List (Leaf String × Node)}
    (hperm : ms.Perm ms') : Change (.record title fs) (.object ms none) (.object ms' none)
  /-- There is one more member. Its name is a text that no field has for a name, and its value is
  anything. -/
  | added {title : String} {fs : Fields} {ms : List (Leaf String × Node)} {key : Leaf String}
    {name : String} {n : Node} {w : Bytes} (hkey : key.kept = .ok name) (hname : name ∉ fs.names)
    (hn : Written (.value n) w) :
    Change (.record title fs) (.object ms none) (.object ((key, n) :: ms) none)
  /-- The null of an optional field is left out. -/
  | dropped {title : String} {fs : Fields} {ms : List (Leaf String × Node)} {key : Leaf String}
    {name : String} {s : Shape} {defaulted : Bool} (hkey : key.kept = .ok name)
    (p : fs.Place name s.option defaulted) :
    Change (.record title fs) (.object ((key, .null) :: ms) none) (.object ms none)
  /-- The value of a field is changed. -/
  | field {title : String} {fs : Fields} {ms : List (Leaf String × Node)} {key : Leaf String}
    {name : String} {s : Shape} {defaulted : Bool} {n n' : Node} (hkey : key.kept = .ok name)
    (p : fs.Place name s defaulted) (h : Change s n n') :
    Change (.record title fs) (.object ((key, n) :: ms) none) (.object ((key, n') :: ms) none)
  /-- An item of a list is changed. -/
  | item {s : Shape} {front back : List Node} {n n' : Node} (h : Change s n n') :
    Change (.list s) (.array (front ++ n :: back) none) (.array (front ++ n' :: back) none)

namespace Shape

lemma mapM_append_congr {α β ε : Type} {f : α → Except ε β} {front back : List α} {a a' : α}
    {bs : List β} (ha : ∀ b, f a = .ok b → f a' = .ok b)
    (h : (front ++ a :: back).mapM f = .ok bs) : (front ++ a' :: back).mapM f = .ok bs := by
  induction front generalizing bs with
  | nil =>
    rw [List.nil_append, List.mapM_cons] at h ⊢
    obtain ⟨b, hb, hrest⟩ := bind_eq_ok h
    rw [ha b hb]
    exact hrest
  | cons c front ih =>
    rw [List.cons_append, List.mapM_cons] at h ⊢
    obtain ⟨b, hb, hrest⟩ := bind_eq_ok h
    obtain ⟨bs, hbs, hrest⟩ := bind_eq_ok hrest
    rw [hb]
    change ((front ++ a' :: back).mapM f >>= _) = _
    rw [ih hbs]
    exact hrest

/-- A change does not change what is read. -/
lemma Change.decode_eq {s : Shape} {n n' : Node} (h : s.Change n n') {v : s.Val}
    (hv : s.decode n = .ok v) : s.decode n' = .ok v := by
  induction h with
  | permuted hperm =>
    obtain ⟨slots, hslots, hstop, hrow⟩ := Fields.decode_object.mp hv
    have hslots' := Fields.foldlM_readMember_perm hperm hslots
    exact Fields.decode_object.mpr ⟨slots, hslots', hstop, hrow⟩
  | added hkey hname hn =>
    obtain ⟨slots, hslots, hstop, hrow⟩ := Fields.decode_object.mp hv
    refine Fields.decode_object.mpr ⟨slots, ?_, hstop, hrow⟩
    rw [List.foldlM_cons, Fields.readMember_kept hkey, Fields.put_unknown hn.sound hname]
    exact hslots
  | @dropped title fs ms key name s defaulted hkey p =>
    obtain ⟨slots, hslots, hstop, hrow⟩ := Fields.decode_object.mp hv
    -- Read last, the null finds all other members read, and no field needs it.
    have hmoved : ((key, Node.null) :: ms).Perm (ms ++ [(key, .null)]) :=
      (List.perm_append_singleton _ ms).symm
    have hlast := Fields.foldlM_readMember_perm hmoved hslots
    rw [List.foldlM_append] at hlast
    obtain ⟨slots', hslots', hnull⟩ := bind_eq_ok hlast
    rw [List.foldlM_cons, Fields.readMember_kept hkey] at hnull
    obtain ⟨_, hput, heq⟩ := bind_eq_ok hnull
    cases heq
    refine Fields.decode_object.mpr ⟨slots', hslots', hstop, ?_⟩
    rw [← p.complete_put_null hput]
    exact hrow
  | field hkey p _ ih =>
    obtain ⟨slots, hslots, hstop, hrow⟩ := Fields.decode_object.mp hv
    refine Fields.decode_object.mpr ⟨slots, ?_, hstop, hrow⟩
    rw [List.foldlM_cons, Fields.readMember_kept hkey] at hslots ⊢
    obtain ⟨next, hput, hrest⟩ := bind_eq_ok hslots
    rw [p.put_congr (fun v hv => ih hv) hput]
    exact hrest
  | item _ ih =>
    obtain ⟨vs, hvs, hrest⟩ := bind_eq_ok hv
    have hvs' := mapM_append_congr (fun v hv => ih hv) hvs
    change (List.mapM _ _ >>= _) = _
    rw [hvs']
    exact hrest

/-- The second text is got from the first one by changes, one after the other. -/
def Extends (s : Shape) (bs bs' : Bytes) : Prop :=
  ∃ n n', IsText bs n ∧ IsText bs' n' ∧ Relation.ReflTransGen s.Change n n'

lemma ofBytes_isText {s : Shape} {bs : Bytes} {n : Node} (h : IsText bs n) {v : s.Val} :
    s.ofBytes bs = .ok v ↔ s.decode n = .ok v := by
  unfold ofBytes
  rw [h.ofBytes_eq]
  dsimp only
  cases s.decode n with
  | error e => exact Iff.rfl
  | ok v => exact Iff.rfl

/-- A text that is extended is read as the value it was read as. -/
theorem Extends.ofBytes_eq {s : Shape} {bs bs' : Bytes} (h : s.Extends bs bs') {v : s.Val}
    (hv : s.ofBytes bs = .ok v) : s.ofBytes bs' = .ok v := by
  obtain ⟨n, n', hn, hn', hchanges⟩ := h
  apply (ofBytes_isText hn').mpr
  have hread := (ofBytes_isText hn).mp hv
  clear hn hn' hv
  induction hchanges with
  | refl => exact hread
  | tail _ hchange ih => exact hchange.decode_eq ih

lemma Extends.map_ofBytes_eq {α : Type} {s : Shape} {bs bs' : Bytes} {f : s.Val → α}
    (h : s.Extends bs bs') {a : α} (ha : (s.ofBytes bs).map f = .ok a) :
    (s.ofBytes bs').map f = .ok a := by
  obtain ⟨v, hv, rfl⟩ := map_eq_ok ha
  rw [h.ofBytes_eq hv]
  rfl

end Shape
end Json

/-- References, trees, commits and files are read as before when the remote side moves the members
of their objects, gives more of them, or leaves out the null of an optional one. -/
theorem answers_extensible (bs bs' : Bytes) :
    (Reference.shape.Extends bs bs' →
      ∀ v, (Reference.shape.ofBytes bs).map Reference.ofVal = .ok v →
        (Reference.shape.ofBytes bs').map Reference.ofVal = .ok v) ∧
    (Tree.shape.Extends bs bs' →
      ∀ v, (Tree.shape.ofBytes bs).map Tree.ofVal = .ok v →
        (Tree.shape.ofBytes bs').map Tree.ofVal = .ok v) ∧
    (Commit.shape.Extends bs bs' →
      ∀ v, (Commit.shape.ofBytes bs).map Commit.ofVal = .ok v →
        (Commit.shape.ofBytes bs').map Commit.ofVal = .ok v) ∧
    (FileInfo.shape.Extends bs bs' →
      ∀ v, (FileInfo.shape.ofBytes bs).map FileInfo.ofVal = .ok v →
        (FileInfo.shape.ofBytes bs').map FileInfo.ofVal = .ok v) :=
  ⟨fun h _ hv => h.map_ofBytes_eq hv, fun h _ hv => h.map_ofBytes_eq hv,
    fun h _ hv => h.map_ofBytes_eq hv, fun h _ hv => h.map_ofBytes_eq hv⟩

/-- A commit whose message is null. -/
def commitText : Bytes :=
  Text.Utf8.encode "\x7b\"message\":null,\"sha\":\"c\",\"tree\":\x7b\"sha\":\"t\"\x7d\x7d"

/-- The same commit without the null, in another order, and with an address in its tree. -/
def extendedCommitText : Bytes :=
  Text.Utf8.encode "\x7b\"tree\":\x7b\"url\":[],\"sha\":\"t\"\x7d,\"sha\":\"c\"\x7d"

/-- The members of the commit that are not null. -/
def commitMembers : List (String × Value) :=
  [("sha", .text "c"), ("tree", .object [("sha", .text "t")])]

def extendedCommitMembers : List (String × Value) :=
  [("tree", .object [("url", .list []), ("sha", .text "t")]), ("sha", .text "c")]

lemma commitText_isText : IsText commitText
    (.object ((⟨.ok "message", none⟩, .null) :: Value.memberNodes commitMembers) none) := by
  have hwritten := Written.object (Value.written_members "message" .null
    (Value.writtenMembers commitMembers (List.cons_ne_nil _ _)))
  have hbytes : commitText = 123 :: ((34 :: (Value.stringBytes "message" ++ 34 :: 58 ::
      ([110, 117, 108, 108] ++ 44 :: Value.memberBytes commitMembers))) ++ [125]) := by
    decide +kernel
  rw [hbytes]
  exact hwritten.isText

lemma extendedCommitText_isText :
    IsText extendedCommitText (.object (Value.memberNodes extendedCommitMembers) none) := by
  have hbytes : extendedCommitText = Value.bytes (.object extendedCommitMembers) := by
    decide +kernel
  rw [hbytes]
  exact (Value.written (.object extendedCommitMembers)).isText

/-- A commit is read as before without its null, in another order, and with a new member in its
tree. -/
theorem answers_extensible_commit :
    Commit.shape.Extends commitText extendedCommitText ∧
      (Commit.shape.ofBytes commitText).map Commit.ofVal = .ok ⟨"c", "t", none, []⟩ ∧
      (Commit.shape.ofBytes extendedCommitText).map Commit.ofVal = .ok ⟨"c", "t", none, []⟩ := by
  have hread : (Commit.shape.ofBytes commitText).map Commit.ofVal =
      .ok ⟨"c", "t", none, []⟩ := by
    decide +kernel
  have hdropped : Commit.shape.Change
      (.object ((⟨.ok "message", none⟩, .null) :: Value.memberNodes commitMembers) none)
      (.object (Value.memberNodes commitMembers) none) :=
    .dropped rfl (.after (by decide) (.after (by decide) (.first _)))
  have hmoved : Commit.shape.Change (.object (Value.memberNodes commitMembers) none)
      (.object (Value.memberNodes commitMembers.reverse) none) :=
    .permuted (.swap _ _ _)
  have hadded : Commit.shape.Change (.object (Value.memberNodes commitMembers.reverse) none)
      (.object (Value.memberNodes extendedCommitMembers) none) :=
    .field rfl (.after (by decide) (.first _)) (.added rfl (by decide) (.emptyArray blank_nil))
  have hextends : Commit.shape.Extends commitText extendedCommitText :=
    ⟨_, _, commitText_isText, extendedCommitText_isText,
      ((Relation.ReflTransGen.single hdropped).tail hmoved).tail hadded⟩
  exact ⟨hextends, hread, (answers_extensible _ _).2.2.1 hextends _ hread⟩

end HostedRepo
