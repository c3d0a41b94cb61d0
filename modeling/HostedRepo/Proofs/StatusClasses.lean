import HostedRepo.Proofs.AgreeingRuns
import HostedRepo.Proofs.CallOpenings
import HostedRepo.Proofs.LinkResolution

/-!
# Statuses and errors

The final response to a call is judged by its status alone: a success is read, 404 says that the
resource does not exist, and any other status refuses the call with what the body says. No call
finds another reason to say that something does not exist.
-/

namespace HostedRepo

open Http

/-- Whether an error stands for the status of a response. -/
def RemoteError.tellsStatus : RemoteError → Bool
  | .notFound _ | .refused _ _ => true
  | _ => false

/-- None of the byte order marks stands at the front. -/
def Unmarked (body : Bytes) : Prop :=
  ¬[0xef, 0xbb, 0xbf] <+: body ∧ ¬[0xff, 0xfe] <+: body ∧ ¬[0xfe, 0xff] <+: body

/-- The text of a body under a content type that names a way to read it, or that names none. A byte
order mark goes before either and is dropped. -/
inductive BodyText (named : Option (Bytes → String)) : Bytes → String → Prop
  | utf8 (rest : Bytes) : BodyText named ([0xef, 0xbb, 0xbf] ++ rest) (Text.Utf8.decodeLossy rest)
  | little (rest : Bytes) :
    BodyText named ([0xff, 0xfe] ++ rest) (Text.Utf16.decodeLossy .little rest)
  | big (rest : Bytes) : BodyText named ([0xfe, 0xff] ++ rest) (Text.Utf16.decodeLossy .big rest)
  | charset {decode : Bytes → String} {body : Bytes} : named = some decode → Unmarked body →
    BodyText named body (decode body)
  | plain {body : Bytes} : named = none → Unmarked body →
    BodyText named body (Text.Utf8.decodeLossy body)

namespace Http.Response

/-- How the content type of a response says that its body is read; `charset` tells how a content type
does, if it names a charset that is known. -/
def named (charset : String → Option (Bytes → String)) (response : Response) :
    Option (Bytes → String) :=
  (response.visible? "content-type").bind charset

/-- The response comes with the text that its body has in the charset of its content type. -/
def ReadIn (charset : String → Option (Bytes → String)) (response : Response) : Prop :=
  ∀ body, response.content? = some body →
    response.charsetText = (response.named charset).map (· body)

end Http.Response

/-- The message that a body gives for an error: the member of this name if the text has the form of
an error answer, or else all of the text, or what stands in for a body that cannot be read. -/
inductive ErrorText (charset : String → Option (Bytes → String)) (response : Response) :
    String → Prop
  | unreadable : response.content? = none → ErrorText charset response "Unknown error"
  | member {body : Bytes} {text message : String} : response.content? = some body →
    BodyText (response.named charset) body text →
    refusalShape.ofBytes (Text.Utf8.encode text) = .ok (message, ()) →
    ErrorText charset response message
  | whole {body : Bytes} {text : String} : response.content? = some body →
    BodyText (response.named charset) body text →
    (∀ message, refusalShape.ofBytes (Text.Utf8.encode text) ≠ .ok (message, ())) →
    ErrorText charset response text

/-- What the transport hands back for a call, and what the call makes of it; `Says` tells what a
response that refuses the call has for a message. -/
inductive Classifies {α : Type} (Says : Response → String → Prop) (resource : String) :
    Except Fault Response → Except RemoteError α → Prop
  | unanswered (f : Fault) : Classifies Says resource (.error f) (.error (.transport f))
  | success {response : Response} {x : Except RemoteError α} : response.status.isSuccess = true →
    Blames (fun e => e.tellsStatus = false) x → Classifies Says resource (.ok response) x
  | missing {response : Response} : response.status = 404 →
    Classifies Says resource (.ok response) (.error (.notFound resource))
  | refused {response : Response} {message : String} : response.status.isSuccess = false →
    response.status ≠ 404 → Says response message →
    Classifies Says resource (.ok response) (.error (.refused response.status message))

namespace Classifies

variable {α : Type} {Says : Response → String → Prop} {resource : String}
  {y : Except Fault Response} {x : Except RemoteError α}

lemma imp {Says' : Response → String → Prop} (h : Classifies Says resource y x)
    (htells : ∀ response message, y = .ok response → Says response message →
      Says' response message) : Classifies Says' resource y x := by
  cases h with
  | unanswered f => exact .unanswered f
  | success hstatus hblames => exact .success hstatus hblames
  | missing hstatus => exact .missing hstatus
  | refused hstatus hother hmessage =>
    exact .refused hstatus hother (htells _ _ rfl hmessage)

lemma notFound {what : String} (h : Classifies Says resource y x)
    (hx : x = .error (.notFound what)) :
    ∃ response, y = .ok response ∧ response.status = 404 := by
  cases h with
  | unanswered f => cases hx
  | success _ hblames => cases hblames _ hx
  | missing hstatus => exact ⟨_, rfl, hstatus⟩
  | refused => cases hx

end Classifies

namespace Call

/-- Whether a call makes its request without looking something up first. -/
def isDirect : Call → Bool
  | .deleteFile _ _ d => d.sha.isSome
  | _ => true

/-- The statuses that a call does not take for the answer but for the way to it. -/
def directions : Call → List Status
  | .archiveLink .. => [301, 302]
  | _ => []

end Call

namespace Client

variable {α : Type} {c : Client}

/-! ### Messages -/

lemma exists_bodyText {charset : String → Option (Bytes → String)} {response : Response}
    (hread : response.ReadIn charset) {body : Bytes} (hbody : response.content? = some body) :
    ∃ text, response.text? = some text ∧ BodyText (response.named charset) body text := by
  unfold Response.text?
  rw [hbody]
  refine ⟨_, rfl, ?_⟩
  dsimp only
  split
  · next rest => exact .utf8 rest
  · next rest => exact .little rest
  · next rest => exact .big rest
  · next hutf8 hlittle hbig =>
    have hunmarked : Unmarked body :=
      ⟨fun ⟨rest, h⟩ => hutf8 rest h.symm, fun ⟨rest, h⟩ => hlittle rest h.symm,
        fun ⟨rest, h⟩ => hbig rest h.symm⟩
    rw [hread body hbody]
    cases hnamed : response.named charset with
    | none => exact .plain rfl hunmarked
    | some decode => exact .charset rfl hunmarked

lemma refusal_errorText {charset : String → Option (Bytes → String)} {response : Response}
    (hread : response.ReadIn charset) : ErrorText charset response (refusal response) := by
  unfold refusal errorText
  cases hbody : response.content? with
  | none =>
    have htext : response.text? = none := by rw [Response.text?, hbody, Option.map_none]
    have hbytes : Text.Utf8.encode "Unknown error" = 85 :: Text.Utf8.encode "nknown error" := by
      decide
    have hstand : refusalShape.ofBytes (Text.Utf8.encode "Unknown error") =
        .error (.fault .malformed) := by
      rw [hbytes]
      rfl
    rw [htext]
    dsimp only [Option.getD_none]
    rw [hstand]
    exact .unreadable hbody
  | some body =>
    obtain ⟨text, htext, hbodyText⟩ := exists_bodyText hread hbody
    rw [htext]
    dsimp only [Option.getD_some]
    split
    · next message hdecode => exact .member hbody hbodyText hdecode
    · next e hdecode =>
      refine .whole hbody hbodyText fun message hmessage => ?_
      cases hdecode.symm.trans hmessage

/-- The message of an error answer, as the client finds it. -/
def TellsRefusal (response : Response) (message : String) : Prop := message = refusal response

/-! ### Checked responses -/

/-- A response that is checked and then read is judged by its status if what reads it tells none. -/
lemma classifies_checked {read : Response → Except RemoteError α}
    (hread : ∀ response, Blames (fun e => e.tellsStatus = false) (read response))
    (resource : String) (y : Except Fault Response) :
    Classifies TellsRefusal resource y (y.mapError .transport >>= checked resource >>= read) := by
  cases y with
  | error f => exact .unanswered f
  | ok response =>
    change Classifies TellsRefusal resource (.ok response) (checked resource response >>= read)
    unfold checked
    split
    · next hsuccess => exact .success hsuccess (hread response)
    · next hsuccess =>
      split
      · next hmissing => exact .missing hmissing
      · next hmissing =>
        exact .refused (by simpa using hsuccess) hmissing rfl

/-! ### Calls with one request -/

/-- What the request of a call comes to on a wire. -/
def outcome (c : Client) (o : Opening) (u : Url) (w : Wire) : Except Fault Response :=
  ((c.agent.send (Agent.prepare o.method u o.query (c.headers o.accept) o.body)).run w).1

lemma Concludes.result {o : Opening} {resource : String} {read : Response → Except RemoteError α}
    {x : Exchange α} (h : c.Concludes o resource read x) {u : Url}
    (hu : c.endpoint o.segments = .ok u) (w : Wire) :
    (x.run w).1 = ((c.outcome o u w).mapError .transport >>= checked resource >>= read) := by
  obtain ⟨e, hrun⟩ := h u w hu
  have halike : w.Alike (w.report e) := ⟨rfl, rfl⟩
  rw [hrun, outcome, (Agent.send_alike c.agent _ w (w.report e) halike).1]
  rfl

lemma tellsStatus_decoded (s : Json.Shape) (f : s.Val → α) (response : Response) :
    Blames (fun e => e.tellsStatus = false) ((decoded s response).map f) :=
  (blames_decoded (by rfl) s response).map f

lemma tellsStatus_fileInfo (path : String) (response : Response) :
    Blames (fun e => e.tellsStatus = false) (wholeBody response >>= fileInfo path) :=
  Blames.bind (blames_wholeBody (by rfl) response) (blames_fileInfo (by rfl) (fun _ => by rfl) path)

/-- A call that makes one request is judged by what that comes to. -/
theorem answer_of_opening {x : Call} {o : Opening} (hx : x.opening? = some o) {u : Url}
    (hu : c.endpoint o.segments = .ok u) (w : Wire) :
    Classifies TellsRefusal x.resource (c.outcome o u w) ((c.answer x).run w).1 := by
  suffices hconcludes : ∃ read : Response → Except RemoteError x.Reply,
      (∀ response, Blames (fun e => e.tellsStatus = false) (read response)) ∧
        c.Concludes o x.resource read (c.answer x) by
    obtain ⟨read, hread, hconcludes⟩ := hconcludes
    rw [hconcludes.result hu]
    exact classifies_checked hread x.resource _
  cases x with
  | getRef r reference =>
    cases hx
    exact ⟨_, tellsStatus_decoded _ _, gitCall_concludes c r _ _ rfl rfl⟩
  | updateRef r reference sha force =>
    cases hx
    exact ⟨_, tellsStatus_decoded _ _, gitCall_concludes c r _ _ rfl rfl⟩
  | getTree r sha recursive =>
    cases hx
    exact ⟨_, tellsStatus_decoded _ _, gitCall_concludes c r _ _ rfl rfl⟩
  | createTree r base entries =>
    cases hx
    exact ⟨_, tellsStatus_decoded _ _, gitCall_concludes c r _ _ rfl rfl⟩
  | createCommit r commit =>
    cases hx
    exact ⟨_, tellsStatus_decoded _ _, gitCall_concludes c r _ _ rfl rfl⟩
  | getContents r path reference =>
    cases hx
    exact ⟨_, tellsStatus_fileInfo path, getContents_concludes c r path reference⟩
  | downloadContents r path reference =>
    cases hx
    exact ⟨_, blames_fileContent (by rfl) (fun _ => by rfl) path,
      downloadContents_concludes c r path reference⟩
  | deleteFile r path d =>
    obtain ⟨message, sha, branch⟩ := d
    obtain ⟨sha, rfl, rfl⟩ := Option.map_eq_some_iff.mp hx
    exact ⟨_, fun _ => blames_ok (), deleteFile_concludes c r path message sha branch⟩
  | archiveLink => cases hx

/-! ### Archive links -/

/-- What the request for a link comes to at a URL. -/
def linkOutcome (c : Client) (u : Url) (w : Wire) : Except Fault Response :=
  ((c.stayingAgent.send (Agent.prepare .get u [] (c.headers acceptJson) none)).run w).1

lemma ask_result (u : Url) (w : Wire) :
    ((c.ask u).run w).1 = (c.linkOutcome u w).mapError .transport := rfl

lemma linkOutcome_alike {u : Url} {w₁ w₂ : Wire} (h : w₁.Alike w₂) :
    c.linkOutcome u w₁ = c.linkOutcome u w₂ :=
  (Agent.send_alike c.stayingAgent _ w₁ w₂ h).1

lemma resolveLink_classified (r : RepoName) (format : ArchiveFormat) (limit left : Nat) (u : Url)
    (w : Wire) (hstays : ∀ response, c.linkOutcome u w = .ok response →
      response.status ∉ [301, 302]) :
    Classifies TellsRefusal (r.text ++ " " ++ format.name) (c.linkOutcome u w)
      ((c.resolveLink r format limit left u).run w).1 := by
  let w₁ := w.report (resolvingEvent r format u)
  have halike : w.Alike w₁ := ⟨rfl, rfl⟩
  have hask : ((c.ask u).run w₁).1 = (c.linkOutcome u w).mapError .transport := by
    rw [ask_result, linkOutcome_alike halike]
  cases hy : c.linkOutcome u w with
  | error fault =>
    rw [hy] at hask
    rw [resolveLink_of_error (Prod.ext hask rfl)]
    exact .unanswered fault
  | ok response =>
    rw [hy] at hask
    have hstatus : response.status ≠ 302 ∧ response.status ≠ 301 := by
      simpa [and_comm] using hstays response hy
    rw [resolveLink_of_checked (Prod.ext hask rfl) hstatus rfl]
    exact classifies_checked (fun _ => blames_error rfl) _ (.ok response)

/-- What the transport hands back in the end for a call: the outcome of its request, or that of the
request for a link at a URL to which moves have brought its resolution. -/
inductive HandsBack (c : Client) (w : Wire) : Call → Except Fault Response → Prop
  | once {x : Call} {o : Opening} {u : Url} : x.opening? = some o → c.endpoint o.segments = .ok u →
    HandsBack c w x (c.outcome o u w)
  | moved {r : RepoName} {format : ArchiveFormat} {reference : String} {limit : Nat}
    {start u : Url} {asked : List Url} {moves rest : List Response} :
    c.endpoint ["repos", r.owner, r.repo, format.name, reference] = .ok start →
    c.Moved w.reaches start asked moves u → w.responses = moves ++ rest → moves.length ≤ limit →
    HandsBack c w (.archiveLink r format reference limit)
      (c.linkOutcome u { w with responses := rest })

lemma archiveLink_run {r : RepoName} {format : ArchiveFormat} {reference : String} {limit : Nat}
    {start : Url} (h : c.endpoint ["repos", r.owner, r.repo, format.name, reference] = .ok start)
    (w : Wire) : (c.archiveLink r format reference limit).run w =
      (c.resolveLink r format limit limit start).run w := by
  change (Exchange.of _ >>= _ : Exchange Url).run w = _
  rw [run_bind, h]
  rfl

lemma HandsBack.classifies {w : Wire} {x : Call} {y : Except Fault Response}
    (h : c.HandsBack w x y) (hstays : ∀ response, y = .ok response →
      response.status ∉ x.directions) :
    Classifies TellsRefusal x.resource y ((c.answer x).run w).1 := by
  cases h with
  | once hx hu => exact answer_of_opening hx hu w
  | @moved r format reference limit start u asked moves rest hstart hmoves hw hlimit =>
    obtain ⟨left, rfl⟩ := Nat.exists_eq_add_of_le hlimit
    obtain ⟨w₁, hcarries, hrun⟩ :=
      resolveLink_of_moves r format (moves.length + left) left hmoves hw
    have hrest : w₁.responses = rest :=
      (List.append_cancel_left (hw.symm.trans hcarries.responses)).symm
    have halike : Wire.Alike { w with responses := rest } w₁ := ⟨hcarries.reaches, hrest⟩
    rw [linkOutcome_alike halike] at hstays ⊢
    change Classifies TellsRefusal (r.text ++ " " ++ format.name) _
      ((c.archiveLink r format reference (moves.length + left)).run w).1
    rw [archiveLink_run hstart, hrun]
    exact resolveLink_classified r format _ left u w₁ hstays

lemma handsBack_of_missing {s : Settings} (hc : build s = .ok c) {r : RepoName}
    {format : ArchiveFormat} {reference : String} {limit : Nat} {w : Wire} {what : String}
    (h : ((c.archiveLink r format reference limit).run w).1 = .error (.notFound what)) :
    ∃ response, c.HandsBack w (.archiveLink r format reference limit) (.ok response) ∧
      response.status = 404 := by
  obtain ⟨start, hstart⟩ :=
    exists_endpoint hc ["repos", r.owner, r.repo, format.name, reference]
  obtain ⟨asked, moves, u, left, rest, last, unused, x, hmoves, hlength, hw, hend⟩ :=
    exists_endsAt c w.reaches r format limit limit start w.responses
  have hresult := (resolveLink_resolves hmoves hw hend).1
  rw [hlength, ← archiveLink_run hstart, h] at hresult
  subst hresult
  cases hend with
  | @answered response _ _ hsend hverdict =>
    cases hverdict with
    | missing hstatus =>
      obtain ⟨w₁, -, hask⟩ :=
        ask_answered (c := c) (w := { w with responses := response :: unused }) hsend rfl
      have houtcome : c.linkOutcome u { w with responses := response :: unused } = .ok response :=
        mapError_eq_ok (congrArg Prod.fst hask)
      have hback : c.HandsBack w (.archiveLink r format reference limit)
          (c.linkOutcome u { w with responses := response :: unused }) :=
        .moved hstart hmoves hw (by omega)
      rw [houtcome] at hback
      exact ⟨response, hback, hstatus⟩

lemma exists_opening_or_archiveLink {x : Call} (hx : x.isDirect = true) :
    (∃ o, x.opening? = some o) ∨
      ∃ r format reference limit, x = .archiveLink r format reference limit := by
  cases x with
  | deleteFile r path d =>
    obtain ⟨sha, hsha⟩ := Option.isSome_iff_exists.mp hx
    exact .inl ⟨_, Option.map_eq_some_iff.mpr ⟨sha, hsha, rfl⟩⟩
  | archiveLink r format reference limit => exact .inr ⟨r, format, reference, limit, rfl⟩
  | _ => exact .inl ⟨_, rfl⟩

/-- For every call that looks nothing up first, whatever response the transport hands back decides
by its status: a success is never taken for a status that is told, 404 always says that the resource
does not exist, and every other status refuses the call with the message that the body gives, read
in the charset of the response whatever the charsets are. Nothing else says that the resource does
not exist. -/
theorem answer_classified {s : Settings} (hc : build s = .ok c) {x : Call}
    (hx : x.isDirect = true) (w : Wire) :
    let result := ((c.answer x).run w).1
    (∃ y, c.HandsBack w x y) ∧
      (∀ y, c.HandsBack w x y →
        (∀ response, y = .ok response → response.status ∉ x.directions) →
          ∀ charset, (∀ response, y = .ok response → response.ReadIn charset) →
            Classifies (ErrorText charset) x.resource y result) ∧
      ∀ what, result = .error (.notFound what) →
        ∃ response, c.HandsBack w x (.ok response) ∧ response.status = 404 := by
  intro result
  refine ⟨?_, fun y hy hstays charset hread => ?_, fun what hwhat => ?_⟩
  · obtain ⟨o, ho⟩ | ⟨r, format, reference, limit, rfl⟩ := exists_opening_or_archiveLink hx
    · obtain ⟨u, hu⟩ := exists_endpoint hc o.segments
      exact ⟨_, .once ho hu⟩
    · obtain ⟨start, hstart⟩ :=
        exists_endpoint hc ["repos", r.owner, r.repo, format.name, reference]
      exact ⟨_, .moved hstart (.here start) (List.nil_append _).symm (Nat.zero_le limit)⟩
  · refine (hy.classifies hstays).imp fun response message hresponse hmessage => ?_
    rw [hmessage]
    exact refusal_errorText (hread response hresponse)
  · obtain ⟨o, ho⟩ | ⟨r, format, reference, limit, rfl⟩ := exists_opening_or_archiveLink hx
    · obtain ⟨u, hu⟩ := exists_endpoint hc o.segments
      have hback : c.HandsBack w x (c.outcome o u w) := .once ho hu
      obtain ⟨response, hy, hstatus⟩ := (answer_of_opening ho hu w).notFound hwhat
      rw [hy] at hback
      exact ⟨response, hback, hstatus⟩
    · exact handsBack_of_missing hc hwhat

section

/-- The text of bytes in the charset of western European texts, as far as it has no controls. -/
def latin (bs : Bytes) : String := String.ofList (bs.map fun b => Char.ofNat b.toNat)

def latinType : String := "text/plain; charset=iso-8859-1"

/-- An answer that refuses a call in that charset. -/
def refusingAnswer : Response where
  status := 403
  headers := [("content-type", Text.Utf8.encode latinType)]
  body := [0x63, 0x61, 0x66, 0xe9]
  charsetText := some "café"

/-- A call is refused behind a redirect, with a body that is read in the charset of its content
type. -/
theorem answer_classified_refused :
    let charset (name : String) : Option (Bytes → String) :=
      if name = latinType then some latin else none
    let w := Wire.scripted "http" [movedTo 307 "/x", refusingAnswer]
    let x : Call := .getRef ⟨"o", "r"⟩ "refs/heads/main"
    let result : Except RemoteError Reference := ((keyed.answer x).run w).1
    build ⟨some "http://api.test", some "secret", some "agent"⟩ = .ok keyed ∧
      x.isDirect = true ∧ keyed.HandsBack w x (.ok refusingAnswer) ∧
      refusingAnswer.ReadIn charset ∧
      Classifies (ErrorText charset) x.resource (.ok refusingAnswer) result ∧
      result = .error (.refused 403 "café") := by
  intro charset w x result
  have hbuild : build ⟨some "http://api.test", some "secret", some "agent"⟩ = .ok keyed := by
    decide +kernel
  let o : Opening :=
    { segments := ["repos", "o", "r", "git", "ref", shortRef "refs/heads/main"], method := .get }
  let u : Url := keyedUrl ["repos", "o", "r", "git", "ref", "heads", "main"]
  have hu : keyed.endpoint o.segments = .ok u := by decide +kernel
  have houtcome : keyed.outcome o u w = .ok refusingAnswer := by decide +kernel
  have hback : keyed.HandsBack w x (.ok refusingAnswer) := houtcome ▸ .once rfl hu
  have hresult : ((keyed.getRef ⟨"o", "r"⟩ "refs/heads/main").run w).1 =
      .error (.refused 403 "café") := by
    decide +kernel
  have htype : refusingAnswer.visible? "content-type" = some latinType := by decide +kernel
  have hread : refusingAnswer.ReadIn charset := by
    intro body hbody
    obtain rfl : refusingAnswer.body = body := Option.some.inj hbody
    rw [Response.named, htype]
    decide +kernel
  obtain ⟨-, hclassified, -⟩ := answer_classified hbuild (x := x) rfl w
  refine ⟨hbuild, rfl, hback, hread, hclassified _ hback ?_ charset ?_, hresult⟩
  · simp [x, Call.directions]
  · rintro _ ⟨⟩
    exact hread

end

end Client
end HostedRepo
