import StoryPlayer.Proofs.Stream.Frames
import StoryPlayer.Proofs.Wire.Utf8

/-!
# A body that breaks off

A connection may fail at any octet. What was brought by then are the frames whose blank line has
come in full, so what a body brings that breaks off is the start of what it brings if it goes on,
and the pieces in which its octets come do not matter. The one way to lose a frame that came is a
frame in front of it whose payload runs into a limit of the reader.
-/

namespace StoryPlayer

open StoryPlayer.Frame

/-- Whether a failure is one of the transport: of the stream itself and not of its deadline. -/
def Failure.isTransport : Failure → Bool
  | .overdue _ => false
  | f => f.isOfStream

/-- Whether a source ends with a failure of the transport. -/
def Ending.isTransport : Ending → Bool
  | .fail f => f.isTransport
  | _ => false

namespace Wire

/-! ## Lines -/

/-- The lines of a text of which the break has come. A carriage return and a line feed behind it are
one break, so a carriage return at the end of the text is not yet one. -/
inductive Lines : Text → List Text → Prop
  | rest {l : Text} (hl : ∀ c ∈ l, isInner c = true) : Lines l []
  | waiting {l : Text} (hl : ∀ c ∈ l, isInner c = true) : Lines (l ++ ['\r']) []
  | single {l : Text} (hl : ∀ c ∈ l, isInner c = true) {c : Char} (hc : isBreak c = true) {t : Text}
    {ls : List Text} (h : Lines t ls) : Lines (l ++ c :: t) (l :: ls)
  | pair {l : Text} (hl : ∀ c ∈ l, isInner c = true) {t : Text} {ls : List Text} (h : Lines t ls) :
    Lines (l ++ '\r' :: '\n' :: t) (l :: ls)
  | lone {l : Text} (hl : ∀ c ∈ l, isInner c = true) {c : Char} (hc : c ≠ '\n') {t : Text}
    {ls : List Text} (h : Lines (c :: t) ls) : Lines (l ++ '\r' :: c :: t) (l :: ls)

section

variable {l t : Text} {ls : List Text}

/-- The characters up to a carriage return are held back with it. -/
theorem cut_return (hl : ∀ c ∈ l, isInner c = true) (t : Text) :
    cut .none (l ++ '\r' :: t) = cut ⟨l.reverse, true⟩ t := by
  rw [cut_append, OpenLine.none, cut_inner hl, List.append_nil, cut]
  rfl

theorem cut_feed (l t : Text) : (cut ⟨l.reverse, true⟩ ('\n' :: t)).1 = l :: (cut .none t).1 := by
  simp [cut, cutStep, OpenLine.text]

theorem cut_returned {c : Char} (hc : c ≠ '\n') (l t : Text) :
    (cut ⟨l.reverse, true⟩ (c :: t)).1 = l :: (cut .none (c :: t)).1 := by
  simp [cut, cutStep, hc, OpenLine.text, OpenLine.none]

theorem Lines.cut_eq (h : Lines t ls) : (cut .none t).1 = ls := by
  induction h with
  | rest hl => rw [OpenLine.none, cut_inner hl]
  | waiting hl => rw [cut_return hl]; rfl
  | @single l hl c hc t ls _ ih =>
    have hline : cut .none (l ++ c :: t) = (l :: (cut .none t).1, (cut .none t).2) :=
      cut_line hl hc [] t
    rw [hline, ih]
  | pair hl _ ih => rw [cut_return hl, cut_feed, ih]
  | lone hl hc _ ih => rw [cut_return hl, cut_returned hc, ih]

/-- Every text has its lines. -/
theorem exists_lines (t : Text) : ∃ ls, Lines t ls := by
  have hl : ∀ c ∈ t.takeWhile isInner, isInner c = true := fun c => List.mem_takeWhile_imp
  have ht := List.takeWhile_append_dropWhile (p := isInner) (l := t)
  have hhead := List.head?_dropWhile_not isInner t
  generalize t.takeWhile isInner = l at hl ht
  cases hrest : t.dropWhile isInner with
  | nil =>
    rw [hrest, List.append_nil] at ht
    exact ⟨[], ht ▸ .rest hl⟩
  | cons c u =>
    rw [hrest] at ht hhead
    have hshorter : u.length < t.length := by
      rw [← ht, List.length_append, List.length_cons]
      omega
    obtain ⟨ls, hls⟩ := exists_lines u
    by_cases hc : c = '\r'
    · subst hc
      cases u with
      | nil => exact ⟨[], ht ▸ .waiting hl⟩
      | cons d v =>
        by_cases hd : d = '\n'
        · subst hd
          have hfeed : v.length < t.length := by
            rw [List.length_cons] at hshorter
            omega
          obtain ⟨more, hmore⟩ := exists_lines v
          exact ⟨l :: more, ht ▸ .pair hl hmore⟩
        · exact ⟨l :: ls, ht ▸ .lone hl hd hls⟩
    · have hbreak : isBreak c = true := by simpa [isInner, hc] using hhead
      exact ⟨l :: ls, ht ▸ .single hl hbreak hls⟩
termination_by t.length

theorem lines_iff : Lines t ls ↔ (cut .none t).1 = ls := by
  constructor
  · exact Lines.cut_eq
  · rintro rfl
    obtain ⟨ls, hls⟩ := exists_lines t
    rwa [hls.cut_eq]

end

/-! ## Bodies -/

/-- The frames that have ended in the octets of a body: those between the blank lines that have
come. -/
def endedFrames (c : Charset) (octets : List UInt8) : List (List Text) :=
  (framesOf (cut .none (decode c none octets).1).1).dropLast

theorem take_new (c : Charset) (octets : List UInt8) :
    ((Body.new c).take octets).2 = (endedFrames c octets).filterMap outcome? := by
  obtain ⟨last, -, hrun⟩ := run_eq (cut .none (decode c none octets).1).1
  exact congrArg Prod.snd hrun

theorem sourceOfBody_broken (c : Charset) (pieces : List Piece) (f : Failure) :
    (sourceOfBody c pieces (some f)).Tells (endedFrames c (octetsOf pieces)) (.fail f) := by
  refine Source.tells_ofFrames ?_ _ _
  rw [(comings_eq (.new c) [] pieces).1, take_new]

/-- Whatever a body brings starts with what the octets brought that have come. -/
theorem exists_sourceOfBody (c : Charset) (pieces : List Piece) (broken : Option Failure) :
    ∃ came more pauses ending, sourceOfBody c pieces broken = .ofFrames (came ++ more) pauses ending ∧
      came.map (·.2) = ((Body.new c).take (octetsOf pieces)).2 := by
  obtain ⟨hcame, -⟩ := comings_eq (.new c) [] pieces
  -- a body that ends may close one more frame at its end, one that breaks off does not
  cases broken with
  | some f => exact ⟨_, [], _, _, by rw [List.append_nil]; rfl, hcame⟩
  | none =>
    obtain ⟨came, pauses, hsource, houtcomes⟩ := sourceOfBody_eq c pieces
    obtain ⟨first, more, rfl, hfirst, -⟩ := List.map_eq_append_iff.mp houtcomes
    exact ⟨first, more, pauses, _, hsource, hfirst⟩

end Wire

namespace Source

theorem prefix_followedBy (s t : Source) : s.records <+: (s.followedBy t).records := by
  by_cases hstop : s.ending = .stop
  · rw [followedBy_of_stop hstop, records, records, List.map_append]
    exact List.prefix_append _ _
  · rw [followedBy_of_ne hstop]

end Source

namespace Wire

theorem sourceOfBody_prefix (c : Charset) {pieces pieces' : List Piece}
    (h : octetsOf pieces <+: octetsOf pieces') (f : Failure) (broken : Option Failure) :
    (sourceOfBody c pieces (some f)).records <+: (sourceOfBody c pieces' broken).records := by
  obtain ⟨later, hlater⟩ := h
  obtain ⟨came, more, pauses, ending, hsource, hcame⟩ := exists_sourceOfBody c pieces' broken
  rw [← hlater, Body.take_append, take_new] at hcame
  -- the longer body brings the same frames first, so its source is the shorter one followed by more
  obtain ⟨first, rest, rfl, hfirst, -⟩ := List.map_eq_append_iff.mp hcame
  have hrecords : (sourceOfBody c pieces (some f)).records =
      (Source.ofFrames first [] .stop).records :=
    (sourceOfBody_broken c pieces f).records.trans (Source.tells_ofFrames hfirst [] .stop).records.symm
  rw [hrecords, hsource, List.append_assoc, Source.ofFrames_append]
  exact Source.prefix_followedBy _ _

/-! ## Answers -/

theorem isTransport_failure (r : Request) (fault : Fault) :
    (r.failure fault).isTransport = true := by
  cases fault <;> rfl

/-- A source that would fail with its connection does so just if no frame runs into a limit. -/
theorem isTransport_iff {s : Source} {fs : List (List Text)} {f : Failure}
    (h : s.Tells fs (.fail f)) (hf : f.isTransport = true) :
    s.ending.isTransport = true ↔ ∀ frame ∈ fs, isReadable frame = true := by
  rw [← Source.findSome?_limit?_iff, h.ending]
  cases fs.findSome? limit? with
  | none => exact iff_of_true hf rfl
  | some limit => exact iff_of_false Bool.false_ne_true (Option.some_ne_none limit)

section

variable {r : Request} {sent : Sent} (hsend : r.send = .ok sent)
  (hserver : sent.url.isAbsolute = true) {status : Int} (hstatus : 200 ≤ status ∧ status < 300)
  {headers : Headers} (hheaders : headers.unencodable? = none)
include hsend hserver hstatus hheaders

theorem sourceOf_response (pieces : List Piece) (broken : Option Fault) :
    sourceOf r (.response status headers pieces broken) =
      sourceOfBody (.ofContentType ((headers.get? "content-type").getD [])) pieces
        (broken.map r.failure) := by
  unfold sourceOf
  rw [hsend]
  simp [sourceOfAnswer, hheaders, hserver, hstatus]

/-- A server answers with a body that breaks off. What the source brings are the records of the
frames of which the blank line had come in full, up to the first that runs into a limit of the
reader; it brings all of them, and then fails with the connection, just if none does. However the
octets are cut into pieces, the same records come and the same end. And whatever else comes behind
these octets in a longer body, and however that one ends, it brings these records first. -/
theorem sourceOf_broken (pieces : List Piece) (fault : Fault) :
    let charset := Charset.ofContentType ((headers.get? "content-type").getD [])
    let source := sourceOf r (.response status headers pieces (some fault))
    (∃ lines, (∀ ls, Lines (decode charset none (octetsOf pieces)).1 ls ↔ ls = lines) ∧
      let ended := (framesOf lines).dropLast
      source.records = (ended.takeWhile isReadable).filterMap record? ∧
        (source.records = ended.filterMap record? ∧ source.ending = .fail (r.failure fault) ∧
            source.ending.isTransport = true ↔
          ∀ frame ∈ ended, isReadable frame = true)) ∧
      (∀ pieces', octetsOf pieces' = octetsOf pieces →
        let other := sourceOf r (.response status headers pieces' (some fault))
        other.records = source.records ∧ other.ending = source.ending) ∧
      ∀ pieces' broken, octetsOf pieces <+: octetsOf pieces' →
        source.records <+: (sourceOf r (.response status headers pieces' broken)).records := by
  intro charset source
  have hbody := sourceOf_response hsend hserver hstatus hheaders
  have hsource : source = sourceOfBody charset pieces (some (r.failure fault)) :=
    hbody pieces (some fault)
  have htells := sourceOfBody_broken charset pieces (r.failure fault)
  rw [← hsource] at htells
  have htransport := isTransport_iff htells (isTransport_failure r fault)
  refine ⟨⟨_, fun ls => lines_iff.trans eq_comm, htells.records, ?_⟩, fun pieces' hpieces => ?_,
    fun pieces' broken hprefix => ?_⟩
  · constructor
    · exact fun h => htransport.mp h.2.2
    · intro hreadable
      obtain ⟨hrecords, hending⟩ := htells.whole hreadable
      exact ⟨hrecords, hending, htransport.mpr hreadable⟩
  · have hother := sourceOfBody_broken charset pieces' (r.failure fault)
    rw [hpieces] at hother
    rw [hbody]
    exact ⟨hother.records.trans htells.records.symm, hother.ending.trans htells.ending.symm⟩
  · rw [hsource, hbody]
    exact sourceOfBody_prefix charset hprefix _ _

end

/-- The server falls silent behind the carriage return that starts the second blank line: the done
record in front of it has not come. It comes with the line feed. -/
theorem sourceOf_broken_return :
    let r : Request := .new "http://a/s".toList (.object []) [] Request.defaultTimeout
    let octets := encode ("data: \x7b\"type\": \"chunk\", \"text\": \"é\"\x7d\r\n\r\n".toList ++
      "data: \x7b\"type\": \"done\"\x7d\r\n\r".toList)
    let pieces : List Piece := [.octets (octets.take 34), .pause 5, .octets (octets.drop 34)]
    let source := sourceOf r (.response 200 [] pieces (some .timeout))
    (∃ sent, r.send = .ok sent ∧ sent.url.isAbsolute = true) ∧
      ((200 : Int) ≤ 200 ∧ (200 : Int) < 300) ∧ Headers.unencodable? [] = none ∧
      octets[33]? = some 0xC3 ∧ source.records = [⟨.chunk, ['é']⟩] ∧
      source.ending = .fail (.unanswered r.timeout) ∧
      source.records <+:
        (sourceOf r (.response 200 [] (pieces ++ [.octets [0x0A]]) none)).records := by
  intro r octets pieces source
  have hsend : ∃ sent, r.send = .ok sent ∧ sent.url.isAbsolute = true := ⟨_, rfl, by decide +kernel⟩
  have hstatus : (200 : Int) ≤ 200 ∧ (200 : Int) < 300 := by decide
  have hheaders : Headers.unencodable? [] = none := rfl
  obtain ⟨sent, hsent, hserver⟩ := hsend
  obtain ⟨⟨lines, hlines, -, hwhole⟩, -, hprefix⟩ :=
    sourceOf_broken hsent hserver hstatus hheaders pieces .timeout
  have hreadable : ∀ frame ∈ (framesOf lines).dropLast, isReadable frame = true := by
    rw [← (hlines _).mp (lines_iff.mpr rfl)]
    decide +kernel
  refine ⟨⟨sent, hsent, hserver⟩, hstatus, hheaders, by decide +kernel, by decide +kernel,
    (hwhole.mpr hreadable).2.1, hprefix _ none ?_⟩
  exact ⟨[0x0A], by decide +kernel⟩

/-- A frame that is no JSON at all, an integer of too many digits with a comma behind it, takes the
done record in the frame behind it with itself, and hides that the connection failed. -/
theorem sourceOf_broken_lost :
    let r : Request := .new "http://a/s".toList (.object []) [] Request.defaultTimeout
    let long := "data: ".toList ++ List.replicate 4301 '1' ++ [',']
    let done := "data: \x7b\"type\": \"done\"\x7d".toList
    let octets := encode (long ++ '\n' :: '\n' :: (done ++ ['\n', '\n']))
    let source := sourceOf r (.response 200 [] [.octets octets] (some (.other "reset".toList)))
    endedFrames .utf8 octets = [[long], [done]] ∧ record? [done] = some ⟨.done, []⟩ ∧
      source.records = [] ∧ source.ending.isTransport = false := by
  intro r long done octets source
  have hlong : ∀ c ∈ long, isInner c = true := List.all_eq_true.mp (by decide +kernel)
  have hdone : ∀ c ∈ done, isInner c = true := List.all_eq_true.mp (by decide)
  have hnil : ∀ c ∈ ([] : Text), isInner c = true := List.forall_mem_nil _
  have hlines : Lines (long ++ '\n' :: '\n' :: (done ++ ['\n', '\n'])) [long, [], done, []] :=
    .single hlong rfl (.single hnil rfl (.single hdone rfl (.single hnil rfl (.rest hnil))))
  -- by the lines themselves: there are too many octets to decode them one by one
  have hended : endedFrames .utf8 octets = [[long], [done]] := by
    rw [endedFrames, decode_encode, hlines.cut_eq]
    rfl
  obtain ⟨sent, hsent, hserver⟩ : ∃ sent, r.send = .ok sent ∧ sent.url.isAbsolute = true :=
    ⟨_, rfl, by decide +kernel⟩
  have hstatus : (200 : Int) ≤ 200 ∧ (200 : Int) < 300 := by decide
  have hheaders : Headers.unencodable? [] = none := rfl
  have hcharset : Charset.ofContentType ((Headers.get? [] "content-type").getD []) = .utf8 := by
    decide +kernel
  have hsource : source = sourceOfBody .utf8 [.octets octets] (some (.broken "reset".toList)) := by
    rw [← hcharset]
    exact sourceOf_response hsent hserver hstatus hheaders _ _
  have htells := sourceOfBody_broken .utf8 [.octets octets] (.broken "reset".toList)
  rw [← hsource, octetsOf, octetsOf, List.append_nil, hended] at htells
  have hlimit : isReadable [long] = false := by decide +kernel
  refine ⟨hended, by decide +kernel, ?_, ?_⟩
  · rw [htells.records, List.takeWhile_cons_of_neg (by rw [hlimit]; exact Bool.false_ne_true)]
    rfl
  · refine eq_false_of_ne_true fun htransport => ?_
    have hreadable := (isTransport_iff htells rfl).mp htransport [long] List.mem_cons_self
    cases hlimit.symm.trans hreadable

end Wire

end StoryPlayer
