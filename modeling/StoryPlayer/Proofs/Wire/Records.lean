import StoryPlayer.Proofs.Json.Object
import StoryPlayer.Proofs.Text.Trimmed
import StoryPlayer.Proofs.Wire.Body
import StoryPlayer.Proofs.Wire.Utf8

/-!
# Records on the wire

A server sends each record as a frame of one data line, with an object that escapes nothing but what
JSON makes it escape. Three of the characters that may then stand in the line as they are end a line
here, though they end none of an event stream. A frame with one of them falls apart and comes to no
record, and every other frame comes to its record, however the octets are cut into pieces. All that
was sent arrives, therefore, just if no text holds one of the three.
-/

namespace StoryPlayer

open Json

/-! ## Sending -/

/-- Payloads of a record: the object with its kind and its text as content. -/
def Payload (e : StreamRecord) (w : Text) : Prop :=
  ∃ text tail, Spelled e.text text ∧ Spaced [['\x7d'], []] [] tail ∧
    Spaced (openingOf "type".toList e.kind.name.toList "content".toList) (text ++ '"' :: tail) w

/-- Bodies that send records, each in a frame of its own. -/
inductive Sends : List StreamRecord → Text → Prop
  | nil : Sends [] []
  | cons {e : StreamRecord} {rs : List StreamRecord} {w t : Text} (hw : Payload e w)
    (h : Sends rs t) : Sends (e :: rs) ("data: ".toList ++ w ++ '\n' :: '\n' :: t)

/-- A record as the writer of the library writes it. -/
def StreamRecord.written (e : StreamRecord) : Text :=
  (Value.object [("type".toList, .text e.kind.name.toList), ("content".toList, .text e.text)]).write

/-- The writer writes payloads. -/
theorem payload_written {e : StreamRecord} (he : Text.isWhole e.text = true) :
    Payload e e.written := by
  have hwrite : e.written = '\x7b' :: (quote "type".toList ++ (':' :: (quote e.kind.name.toList ++
      (',' :: (quote "content".toList ++ (':' :: '"' ::
        (e.text.flatMap escape ++ '"' :: ['\x7d']))))))) := by
    have htype : "type".toList.flatMap escape = "type".toList := by decide
    have hkind : e.kind.name.toList.flatMap escape = e.kind.name.toList := by
      cases e.kind <;> decide
    have hcontent : "content".toList.flatMap escape = "content".toList := by decide
    simp only [StreamRecord.written, Value.write, Value.onto, fieldsOnto, writeText, writeScalar,
      htype, hkind, hcontent, quote, List.cons_append, List.append_assoc, List.nil_append]
  have hnone : ∀ c ∈ ([] : Text), c = ' ' ∨ c = '\t' := by simp
  refine ⟨e.text.flatMap escape, ['\x7d'], spelled_escape he, .cons hnone (.cons hnone .nil), ?_⟩
  rw [hwrite]
  exact .cons hnone (.cons hnone (.cons hnone (.cons hnone (.cons hnone (.cons hnone (.cons hnone
    (.cons hnone .nil)))))))

/-- Whatever records there are, they can be sent. -/
theorem sends_written {rs : List StreamRecord} (hrs : ∀ e ∈ rs, Text.isWhole e.text = true) :
    Sends rs (rs.flatMap fun e => "data: ".toList ++ e.written ++ ['\n', '\n']) := by
  induction rs with
  | nil => exact .nil
  | cons e rs ih =>
    rw [List.forall_mem_cons] at hrs
    rw [List.flatMap_cons, List.append_assoc]
    exact .cons (payload_written hrs.1) (ih hrs.2)

/-- Whether a character ends a line though it ends none of an event stream and need not be escaped.
-/
def isStrayBreak (c : Char) : Bool :=
  c = '\x85' || c = '\u2028' || c = '\u2029'

/-- Whether a text stays on the line on which it is sent. -/
def staysWhole (t : Text) : Bool :=
  t.all fun c => !isStrayBreak c

theorem isBreak_eq_isStrayBreak {c : Char} (hc : 0x20 ≤ c.toNat) :
    Wire.isBreak c = isStrayBreak c := by
  have hne : ∀ d : Char, d.toNat < 0x20 → c ≠ d := by
    rintro d hd rfl
    omega
  have hfeed := hne '\n' (by decide)
  have hvertical := hne '\x0b' (by decide)
  have hform := hne '\x0c' (by decide)
  have hfile := hne '\x1c' (by decide)
  have hgroup := hne '\x1d' (by decide)
  have hrecord := hne '\x1e' (by decide)
  simp [Wire.isBreak, isStrayBreak, *]

theorem isStrayBreak_beyond {c : Char} (hc : isStrayBreak c = true) : 0x80 ≤ c.toNat := by
  simp only [isStrayBreak, Bool.or_eq_true, decide_eq_true_eq] at hc
  rcases hc with (rfl | rfl) | rfl <;> decide

section

variable {e : StreamRecord} {t w tail rest : Text}

theorem staysWhole_iff (h : Spelled t w) :
    staysWhole t = true ↔ ∀ c ∈ w, isStrayBreak c = false := by
  unfold staysWhole
  rw [List.all_eq_true]
  constructor
  · intro hwhole c hc
    refine eq_false_of_ne_true fun hbreak => ?_
    have hstays := hwhole c ((h.mem_iff (isStrayBreak_beyond hbreak)).mp hc)
    simp [hbreak] at hstays
  · intro hwhole c hc
    rw [Bool.not_eq_true']
    refine eq_false_of_ne_true fun hbreak => ?_
    cases (hwhole c ((h.mem_iff (isStrayBreak_beyond hbreak)).mpr hc)).symm.trans hbreak

theorem forall_inner_of_spelled (h : Spelled t w) (hw : ∀ c ∈ w, isStrayBreak c = false) :
    ∀ c ∈ w, Wire.isInner c = true := by
  intro c hc
  have hprintable := h.isPrintable c hc
  have hreturn : c ≠ '\r' := by
    rintro rfl
    revert hprintable
    decide
  simp [Wire.isInner, isBreak_eq_isStrayBreak hprintable, hw c hc, hreturn]

theorem tail_inner (h : Spaced [['\x7d'], []] [] tail) :
    '"' ∉ tail ∧ ∀ c ∈ tail, Wire.isInner c = true := by
  have hall : ∀ c ∈ tail, (c != '"' && Wire.isInner c) = true :=
    h.forall_mem rfl rfl rfl (by simp)
  simp only [Bool.and_eq_true, bne_iff_ne] at hall
  exact ⟨fun hquote => (hall '"' hquote).1 rfl, fun c hc => (hall c hc).2⟩

theorem front_inner {front : Text}
    (h : Spaced (openingOf "type".toList e.kind.name.toList "content".toList) [] front) :
    ∀ c ∈ front, Wire.isInner c = true := by
  refine h.forall_mem rfl rfl ?_ (by simp)
  cases e.kind <;> rfl

/-- The kinds need no escapes. -/
theorem any_needsEscape_name (k : RecordKind) : k.name.toList.any needsEscape = false := by
  cases k <;> rfl

theorem recordOfFields_eq (e : StreamRecord) :
    Frame.recordOfFields (assign "content".toList (.text e.text)
      (assign "type".toList (.text e.kind.name.toList) [])) = some e := by
  have hne : "type".toList ≠ "content".toList := by decide
  have hkind : RecordKind.ofName? (e.kind.name.toList.map fun c => if c = '-' then '_' else c) =
      some e.kind := by
    cases e.kind <;> decide
  unfold Frame.recordOfFields
  rw [lookup_assign_of_ne hne, lookup_assign_self]
  simp only [Option.getD_some, Value.display, hkind, Option.map_some, Frame.textFields,
    List.findSome?_cons, lookup_assign_self]

/-- A payload is read as what it says. -/
theorem Payload.outcome (h : Payload e w) : Frame.outcomeOfPayload w = some (.ok e) := by
  obtain ⟨text, tail, htext, htail, hopening⟩ := h
  obtain ⟨more, hbrace, hend⟩ := htail.exists_skip_eq rfl
  have hnothing : skip more = [] := by
    cases hend with
    | cons hgap h =>
      cases h
      rw [skip_gap hgap]
      rfl
  obtain ⟨-, hread⟩ := hopening.read_opening rfl (any_needsEscape_name e.kind) rfl
  have hpayload := hread e.text tail more (htext.readText_closed _ tail) hbrace hnothing
  unfold Frame.outcomeOfPayload
  rw [hpayload]
  exact congrArg (Option.map Except.ok) (recordOfFields_eq e)

/-- Only an object with fields comes to a record. -/
theorem read_of_outcomeOfPayload (h : Frame.outcomeOfPayload w = some (.ok e)) :
    ∃ fields, fields ≠ [] ∧ read w = .ok (.object fields) := by
  unfold Frame.outcomeOfPayload at h
  split at h
  next fields hread =>
    refine ⟨fields, ?_, hread⟩
    rintro rfl
    cases h
  · cases h
  · cases h

end

/-! ## Frames that fall apart -/

/-- A first data line with which no frame comes to a record. -/
def Dead (o : Text) : Prop :=
  ∀ more e, Frame.close (o :: more) ≠ some (.ok e)

/-- The data lines of a frame that comes to no record: it starts with a dead line, or every quote in
it is guarded. -/
def Spoilt (o : Text) (data : List Text) : Prop :=
  (∀ v ∈ data, Guarded v) ∨ ∃ more, data = o :: more

section

variable {e : StreamRecord} {o t w x z tail rest line v : Text} {data : List Text}

theorem guarded_join {vs : List Text} (h : ∀ v ∈ vs, Guarded v) :
    Guarded (Text.join ['\n'] vs) := by
  unfold Text.join
  induction vs with
  | nil => exact guarded_of_notMem (by simp)
  | cons v vs ih =>
    rw [List.forall_mem_cons] at h
    cases vs with
    | nil =>
      rw [List.intercalate_singleton]
      exact h.1
    | cons u us =>
      rw [List.intercalate_cons_cons]
      exact (h.1.append (guarded_of_notMem (by decide))).append (ih h.2)

theorem close_eq (hdata : data ≠ []) :
    Frame.close data = Frame.outcomeOfPayload (Text.join ['\n'] data) :=
  if_neg hdata

theorem close_guarded (h : ∀ v ∈ data, Guarded v) : Frame.close data ≠ some (.ok e) := by
  intro hclose
  by_cases hdata : data = []
  · subst hdata
    cases hclose
  · rw [close_eq hdata] at hclose
    obtain ⟨fields, hfields, hread⟩ := read_of_outcomeOfPayload hclose
    exact ((guarded_join h).read_ne_object (z := []) (by simp) hfields).1 hread

/-- Behind guarded lines, one whose last quote is not guarded does not make a record either. -/
theorem close_guarded_concat (h : ∀ v ∈ data, Guarded v) (hx : Guarded x) (hz : '"' ∉ z) :
    Frame.close (data ++ [x ++ '"' :: z]) ≠ some (.ok e) := by
  intro hclose
  have hne : data ++ [x ++ '"' :: z] ≠ [] := by simp
  rw [close_eq hne] at hclose
  obtain ⟨fields, hfields, hread⟩ := read_of_outcomeOfPayload hclose
  have hjoin : Text.join ['\n'] (data ++ [x ++ '"' :: z]) =
      Text.join ['\n'] (data ++ [[]]) ++ x ++ '"' :: z := by
    rw [Text.join_append _ _ (List.cons_ne_nil _ _), List.append_assoc]
    exact congrArg (_ ++ ·) List.intercalate_singleton
  have hempty : ∀ v ∈ data ++ [[]], Guarded v := by
    rw [List.forall_mem_append]
    refine ⟨h, ?_⟩
    simpa using guarded_of_notMem (t := []) (by simp)
  rw [hjoin] at hread
  exact (((guarded_join hempty).append hx).read_ne_object hz hfields).2 hread

theorem Spoilt.close (h : Spoilt o data) (ho : Dead o) : Frame.close data ≠ some (.ok e) := by
  rcases h with h | ⟨more, rfl⟩
  · exact close_guarded h
  · exact ho more e

/-- The front of an object whose text is not closed in its line is dead. -/
theorem dead_of_opening {front : Text}
    (hfront : ∀ rest, Spaced (openingOf "type".toList e.kind.name.toList "content".toList) rest
      (front ++ rest)) (hw : Spelled t w) : Dead (front ++ w) := by
  intro more e' hclose
  rw [close_eq (List.cons_ne_nil _ _)] at hclose
  obtain ⟨fields, -, hread⟩ := read_of_outcomeOfPayload hclose
  obtain ⟨behind, hjoin, hbehind⟩ : ∃ behind, Text.join ['\n'] ((front ++ w) :: more) =
      front ++ (w ++ behind) ∧ ∀ o, ∃ f, readText o behind = .error f := by
    cases more with
    | nil =>
      refine ⟨[], ?_, fun o => ⟨_, rfl⟩⟩
      rw [List.append_nil]
      exact List.intercalate_singleton
    | cons u us =>
      refine ⟨'\n' :: Text.join ['\n'] (u :: us), ?_, fun o => ?_⟩
      swap
      · exact ⟨_, readText_control (by decide) o _⟩
      unfold Text.join
      rw [List.intercalate_cons_cons]
      simp
  obtain ⟨f, hf⟩ := hw.readText_open (hbehind ('"' :: (w ++ behind)))
  obtain ⟨herror, -⟩ :=
    (hfront (w ++ behind)).read_opening rfl (any_needsEscape_name e.kind) rfl
  rw [hjoin, herror f hf] at hread
  cases hread

/-! ## Lines of a frame -/

theorem dropEndWhile_return (hreturn : '\r' ∉ line) :
    Text.dropEndWhile (· == '\r') line = line := by
  refine List.rdropWhile_eq_self_iff.mpr fun hne hlast => hreturn ?_
  rw [beq_iff_eq] at hlast
  exact hlast ▸ List.getLast_mem hne

theorem partOf_data (hreturn : '\r' ∉ v) : Frame.partOf ("data: ".toList ++ v) = .data v := by
  have hreturn' : '\r' ∉ "data: ".toList ++ v := by
    rw [List.mem_append, not_or]
    exact ⟨by decide, hreturn⟩
  unfold Frame.partOf
  rw [dropEndWhile_return hreturn']
  change (if Text.before ':' ("data".toList ++ ':' :: ' ' :: v) = "data".toList then
    Frame.Part.data
      (Frame.unspaced ((Text.behind? ':' ("data".toList ++ ':' :: ' ' :: v)).getD [])) else _) = _
  rw [Text.before_append (by decide), Text.behind?_append (by decide), if_pos rfl]
  rfl

theorem partOf_ne_blank (hreturn : '\r' ∉ line) (hne : line ≠ []) : Frame.partOf line ≠ .blank := by
  unfold Frame.partOf
  rw [dropEndWhile_return hreturn]
  split
  · exact absurd rfl hne
  · simp
  · split <;> simp

/-- What a data line carries is all of it that follows its front. -/
theorem eq_append_of_partOf (hreturn : '\r' ∉ line) (h : Frame.partOf line = .data v) :
    v = [] ∨ ∃ front, '"' ∉ front ∧ front.getLast? ≠ some '\\' ∧ line = front ++ v := by
  unfold Frame.partOf at h
  rw [dropEndWhile_return hreturn] at h
  split at h
  · cases h
  · cases h
  split at h
  next hname =>
    obtain rfl := Frame.Part.data.inj h
    cases hbehind : Text.behind? ':' line with
    | none => exact .inl rfl
    | some u =>
      have hline := Text.behind?_eq_some hbehind
      rw [hname] at hline
      right
      rw [Option.getD_some]
      unfold Frame.unspaced
      split
      next rest => exact ⟨"data: ".toList, by decide, by decide, hline⟩
      next => exact ⟨"data:".toList, by decide, by decide, hline⟩
  · cases h

theorem guarded_of_partOf (hline : Guarded line) (hreturn : '\r' ∉ line)
    (h : Frame.partOf line = .data v) : Guarded v := by
  rcases eq_append_of_partOf hreturn h with rfl | ⟨front, -, hlast, rfl⟩
  · exact guarded_of_notMem (by simp)
  · exact hline.of_append hlast

theorem heard_close_of_ne (h : ∀ e, Frame.close data ≠ some (.ok e)) :
    Frame.heard (Frame.close data).toList = [] := by
  cases hclose : Frame.close data with
  | none => rfl
  | some outcome =>
    cases outcome with
    | error limit => rfl
    | ok e => exact absurd hclose (h e)

/-- A guarded line leaves a spoilt frame spoilt, or ends it without a record. -/
theorem Spoilt.step (h : Spoilt o data) (ho : Dead o) (hline : Guarded line)
    (hreturn : '\r' ∉ line) :
    Spoilt o (Frame.step data line).1 ∧ Frame.heard (Frame.step data line).2.toList = [] := by
  unfold Frame.step
  split
  next v hpart =>
    refine ⟨?_, rfl⟩
    rcases h with h | ⟨more, rfl⟩
    · left
      rw [List.forall_mem_append]
      exact ⟨h, by simpa using guarded_of_partOf hline hreturn hpart⟩
    · exact .inr ⟨more ++ [v], rfl⟩
  · exact ⟨h, rfl⟩
  · refine ⟨.inl (by simp), ?_⟩
    exact heard_close_of_ne fun e => h.close ho

/-- The line on which the text is closed does not make a record of a spoilt frame. -/
theorem Spoilt.step_last (h : Spoilt o data) (ho : Dead o) (hw : Guarded w) (htail : '"' ∉ tail)
    (hreturn : '\r' ∉ w ++ '"' :: tail) :
    (Frame.step data (w ++ '"' :: tail)).2 = none ∧
      ∀ e, Frame.close (Frame.step data (w ++ '"' :: tail)).1 ≠ some (.ok e) := by
  unfold Frame.step
  split
  next v hpart =>
    refine ⟨rfl, fun e => ?_⟩
    dsimp only
    rcases h with h | ⟨more, rfl⟩
    · rcases eq_append_of_partOf hreturn hpart with rfl | ⟨front, hfront, hlast, hcut⟩
      · refine close_guarded ?_
        rw [List.forall_mem_append]
        exact ⟨h, by simpa using guarded_of_notMem (t := []) (by simp)⟩
      rcases List.append_eq_append_iff.mp hcut with ⟨u, rfl, hquote⟩ | ⟨u, rfl, rfl⟩
      · cases u with
        | nil =>
          obtain rfl : '"' :: tail = v := hquote
          exact close_guarded_concat (x := []) h (guarded_of_notMem (by simp)) htail
        | cons d u =>
          obtain ⟨rfl, -⟩ := List.cons.inj hquote
          simp at hfront
      · exact close_guarded_concat h (hw.of_append hlast) htail
    · exact ho (more ++ [v]) e
  · exact ⟨rfl, fun e => h.close ho⟩
  next hblank => exact absurd hblank (partOf_ne_blank hreturn (by simp))

end

/-! ## Frames in a body -/

section

variable {b : Wire.Body} {e : StreamRecord} {rs : List StreamRecord} {o t w tail rest : Text}

theorem notMem_return (h : ∀ c ∈ w, Wire.isInner c = true) : '\r' ∉ w :=
  fun hreturn => by cases h '\r' hreturn

/-- A blank line ends the frame. -/
theorem takeText_blank (hb : b.line = .none) (rest : Text) :
    b.takeText ('\n' :: rest) =
      (({ b with data := [] }.takeText rest).1,
        (Frame.close b.data).toList ++ ({ b with data := [] }.takeText rest).2) :=
  Wire.Body.takeText_line hb (l := []) (by simp) rfl rest

theorem heard_append (os os' : List Frame.Outcome) :
    Frame.heard (os ++ os') = Frame.heard os ++ Frame.heard os' :=
  List.filterMap_append

/-- The rest of a text behind a stray break, and the end of its frame, bring no record. -/
theorem takeText_spoilt (ho : Dead o) (hb : b.line = .none) (hdata : Spoilt o b.data)
    (hw : Spelled t w) (htail : Spaced [['\x7d'], []] [] tail) (rest : Text) :
    ∃ os, Frame.heard os = [] ∧ b.takeText (w ++ '"' :: tail ++ '\n' :: '\n' :: rest) =
      (({ b with data := [] }.takeText rest).1, os ++ ({ b with data := [] }.takeText rest).2) := by
  obtain ⟨hquote, hinner⟩ := tail_inner htail
  induction hlength : w.length using Nat.strongRecOn generalizing b t w with
  | ind n ih =>
    by_cases hwhole : ∃ c ∈ w, isStrayBreak c = true
    · obtain ⟨d, t₁, t₂, w₁, w₂, rfl, hd, hw₁, h₁, h₂⟩ :=
        hw.exists_cut isStrayBreak (fun _ _ => isStrayBreak_beyond) hwhole
      have hline := forall_inner_of_spelled h₁ hw₁
      have hbreak : Wire.isBreak d = true := by
        rwa [isBreak_eq_isStrayBreak (Nat.le_trans (by decide) (isStrayBreak_beyond hd))]
      obtain ⟨hspoilt, hheard⟩ := hdata.step ho h₁.guarded (notMem_return hline)
      have hshorter : w₂.length < n := by
        rw [← hlength, List.length_append, List.length_cons]
        omega
      obtain ⟨os, hos, htaken⟩ := ih w₂.length hshorter
        (b := { b with data := (Frame.step b.data w₁).1 }) hb hspoilt h₂ rfl
      refine ⟨(Frame.step b.data w₁).2.toList ++ os, ?_, ?_⟩
      · rw [heard_append, hheard, hos]
        rfl
      · rw [List.append_assoc, List.append_assoc, List.cons_append,
          Wire.Body.takeText_line hb hline hbreak, ← List.append_assoc, htaken, List.append_assoc]
    · have hwhole' : ∀ c ∈ w, isStrayBreak c = false := by simpa using hwhole
      have hline : ∀ c ∈ w ++ '"' :: tail, Wire.isInner c = true := by
        rw [List.forall_mem_append, List.forall_mem_cons]
        exact ⟨forall_inner_of_spelled hw hwhole', rfl, hinner⟩
      obtain ⟨hnone, hclose⟩ := hdata.step_last ho hw.guarded hquote (notMem_return hline)
      refine ⟨(Frame.close (Frame.step b.data (w ++ '"' :: tail)).1).toList,
        heard_close_of_ne hclose, ?_⟩
      rw [Wire.Body.takeText_line hb hline rfl, hnone, takeText_blank (by exact hb)]
      rfl

/-- A data line in an empty frame. -/
theorem takeText_data (hb : b.line = .none) (hdata : b.data = []) {v : Text}
    (hv : ∀ c ∈ v, Wire.isInner c = true) {d : Char} (hd : Wire.isBreak d = true) (rest : Text) :
    b.takeText ("data: ".toList ++ v ++ d :: rest) = { b with data := [v] }.takeText rest := by
  have hstep : Frame.step b.data ("data: ".toList ++ v) = ([v], none) := by
    unfold Frame.step
    rw [partOf_data (notMem_return hv), hdata]
    rfl
  have hline : ∀ c ∈ "data: ".toList ++ v, Wire.isInner c = true := by
    rw [List.forall_mem_append]
    exact ⟨List.all_eq_true.mp rfl, hv⟩
  rw [Wire.Body.takeText_line hb hline hd, hstep]
  rfl

/-- The frame of a record brings the record if its text stays whole, and no record else. -/
theorem Payload.takeText (h : Payload e w) (hb : b.line = .none) (hdata : b.data = [])
    (rest : Text) :
    ∃ os, Frame.heard os = (if staysWhole e.text then [e] else []) ∧
      (staysWhole e.text = true → os = [.ok e]) ∧
      b.takeText ("data: ".toList ++ w ++ '\n' :: '\n' :: rest) =
        ((b.takeText rest).1, os ++ (b.takeText rest).2) := by
  have hbody : { b with data := [] } = b := by rw [← hdata]
  have hread := h.outcome
  obtain ⟨text, tail, htext, htail, hopening⟩ := h
  obtain ⟨-, htailInner⟩ := tail_inner htail
  obtain ⟨front, rfl, hfront⟩ := hopening.exists_front
  have hfrontInner := front_inner (by simpa using hfront [])
  by_cases hwhole : ∃ c ∈ text, isStrayBreak c = true
  · obtain ⟨d, t₁, t₂, w₁, w₂, rfl, hd, hw₁, h₁, h₂⟩ :=
      htext.exists_cut isStrayBreak (fun _ _ => isStrayBreak_beyond) hwhole
    have hbreak : Wire.isBreak d = true := by
      rwa [isBreak_eq_isStrayBreak (Nat.le_trans (by decide) (isStrayBreak_beyond hd))]
    have hfalse : ¬staysWhole e.text = true := by
      rw [staysWhole_iff htext]
      intro hall
      cases (hall d (by simp)).symm.trans hd
    have hline : ∀ c ∈ front ++ w₁, Wire.isInner c = true := by
      rw [List.forall_mem_append]
      exact ⟨hfrontInner, forall_inner_of_spelled h₁ hw₁⟩
    obtain ⟨os, hos, htaken⟩ := takeText_spoilt (b := { b with data := [front ++ w₁] })
      (dead_of_opening hfront h₁) hb (.inr ⟨[], rfl⟩) h₂ htail rest
    refine ⟨os, by rw [if_neg hfalse, hos], fun hcontra => absurd hcontra hfalse, ?_⟩
    have hcut : "data: ".toList ++ (front ++ (w₁ ++ d :: w₂ ++ '"' :: tail)) ++
        '\n' :: '\n' :: rest =
        "data: ".toList ++ (front ++ w₁) ++ d :: (w₂ ++ '"' :: tail ++ '\n' :: '\n' :: rest) := by
      simp only [List.append_assoc, List.cons_append]
    rw [hcut, takeText_data hb hdata hline hbreak, htaken]
    exact congrArg (fun b' : Wire.Body => ((b'.takeText rest).1, os ++ (b'.takeText rest).2)) hbody
  · have hwhole' : ∀ c ∈ text, isStrayBreak c = false := by simpa using hwhole
    have htrue : staysWhole e.text = true := (staysWhole_iff htext).mpr hwhole'
    have hline : ∀ c ∈ front ++ (text ++ '"' :: tail), Wire.isInner c = true := by
      rw [List.forall_mem_append, List.forall_mem_append, List.forall_mem_cons]
      exact ⟨hfrontInner, forall_inner_of_spelled htext hwhole', rfl, htailInner⟩
    have hclose : Frame.close [front ++ (text ++ '"' :: tail)] = some (.ok e) := by
      rw [close_eq (List.cons_ne_nil _ _), Text.join, List.intercalate_singleton, hread]
    refine ⟨[.ok e], by rw [if_pos htrue]; rfl, fun _ => rfl, ?_⟩
    rw [takeText_data hb hdata hline rfl, takeText_blank (by exact hb), hclose, hbody]
    rfl

/-- A body that sends records brings those whose texts stay whole, and nothing else if all do. -/
theorem Sends.takeText (h : Sends rs t) (hb : b.line = .none) (hdata : b.data = []) :
    ∃ os, b.takeText t = (b, os) ∧ Frame.heard os = rs.filter (fun e => staysWhole e.text) ∧
      ((∀ e ∈ rs, staysWhole e.text = true) → os = rs.map .ok) := by
  induction h with
  | nil =>
    refine ⟨[], ?_, rfl, fun _ => rfl⟩
    exact Prod.ext (by cases b; cases hb; cases hdata; rfl) rfl
  | @cons e rs w t hw h ih =>
    obtain ⟨os, htaken, hheard, hall⟩ := ih
    obtain ⟨first, hfirst, hwhole, hframe⟩ := hw.takeText hb hdata t
    refine ⟨first ++ os, ?_, ?_, ?_⟩
    · rw [hframe, htaken]
    · rw [heard_append, hfirst, hheard, List.filter_cons]
      split <;> rfl
    · rw [List.forall_mem_cons]
      intro hstay
      rw [hwhole hstay.1, hall hstay.2]
      rfl

end

theorem forall_staysWhole_iff {rs : List StreamRecord} :
    (∀ e ∈ rs, staysWhole e.text = true) ↔
      ∀ e ∈ rs, ∀ c ∈ e.text, c ≠ '\x85' ∧ c ≠ '\u2028' ∧ c ≠ '\u2029' := by
  simp [staysWhole, isStrayBreak, and_assoc]

/-! ## Sources -/

namespace Wire

/-- A server sends records, each as a data line with an object that escapes just what JSON makes it
escape, and behind it a blank line. However the octets are cut into pieces, and whatever pauses are
between them, the source brings just these records in their order, and ends as the server ends it,
exactly if no text holds one of the three characters that end a line here and none of an event
stream. -/
theorem sourceOf_sends_iff {r : Request} {sent : Sent} (hsend : r.send = .ok sent)
    (hserver : sent.url.isAbsolute = true) {status : Int} (hstatus : 200 ≤ status ∧ status < 300)
    {headers : Headers} (hheaders : headers.unencodable? = none)
    (hcharset : Charset.ofContentType ((headers.get? "content-type").getD []) = .utf8)
    {rs : List StreamRecord} {t : Text} (hbody : Sends rs t) {pieces : List Piece}
    (hpieces : octetsOf pieces = encode t) :
    let source := sourceOf r (.response status headers pieces none)
    source.records = rs ∧ source.ending = .stop ↔
      ∀ e ∈ rs, ∀ c ∈ e.text, c ≠ '\x85' ∧ c ≠ '\u2028' ∧ c ≠ '\u2029' := by
  have hsource : sourceOf r (.response status headers pieces none) =
      sourceOfBody .utf8 pieces none := by
    unfold sourceOf
    rw [hsend]
    simp [sourceOfAnswer, hheaders, hserver, hstatus, hcharset]
  obtain ⟨os, htaken, hheard, hall⟩ := hbody.takeText (b := .new .utf8) rfl rfl
  obtain ⟨came, pauses, hframes, hcame⟩ := sourceOfBody_eq .utf8 pieces
  have houtcomes : came.map (·.2) = os := by
    rw [hcame, hpieces, (Body.new .utf8).take_eq_takeText (decode_encode t), htaken]
    exact List.append_nil os
  intro source
  have hsource' : source = .ofFrames came pauses .stop := hsource.trans hframes
  rw [hsource', ← forall_staysWhole_iff]
  constructor
  · rintro ⟨hrecords, -⟩
    have hlength := Source.length_ofFrames_le came pauses .stop
    rw [hrecords, houtcomes, hheard] at hlength
    exact List.length_filter_eq_length_iff.mp
      (Nat.le_antisymm (List.length_filter_le _ _) hlength)
  · intro hwhole
    exact Source.ofFrames_of_records (houtcomes.trans (hall hwhole)) pauses .stop

/-- A chunk is cut within a letter of two octets, and a text that is escaped comes behind it. -/
theorem sourceOf_sends_cut :
    let r : Request := .new "http://a/s".toList (.object []) [] Request.defaultTimeout
    let rs : List StreamRecord := [⟨.chunk, ['é', '"']⟩, ⟨.done, ['a', '\n', '\\']⟩]
    let t := rs.flatMap fun e => "data: ".toList ++ e.written ++ ['\n', '\n']
    let pieces : List Piece :=
      [.octets ((encode t).take 34), .pause 5, .octets ((encode t).drop 34)]
    let source := sourceOf r (.response 200 [] pieces none)
    (∃ sent, r.send = .ok sent ∧ sent.url.isAbsolute = true) ∧
      ((200 : Int) ≤ 200 ∧ (200 : Int) < 300) ∧ Headers.unencodable? [] = none ∧
      Charset.ofContentType ((Headers.get? [] "content-type").getD []) = .utf8 ∧ Sends rs t ∧
      octetsOf pieces = encode t ∧ (encode t)[33]? = some 0xC3 ∧
      source.records = rs ∧ source.ending = .stop := by
  intro r rs t pieces source
  have hsend : ∃ sent, r.send = .ok sent ∧ sent.url.isAbsolute = true := ⟨_, rfl, by decide +kernel⟩
  have hstatus : (200 : Int) ≤ 200 ∧ (200 : Int) < 300 := by decide
  have hheaders : Headers.unencodable? [] = none := rfl
  have hcharset : Charset.ofContentType ((Headers.get? [] "content-type").getD []) = .utf8 := by
    decide +kernel
  have hsends : Sends rs t := sends_written (by decide)
  have hpieces : octetsOf pieces = encode t := by
    change (encode t).take 34 ++ ((encode t).drop 34 ++ []) = encode t
    rw [List.append_nil, List.take_append_drop]
  have hwhole : ∀ e ∈ rs, ∀ c ∈ e.text, c ≠ '\x85' ∧ c ≠ '\u2028' ∧ c ≠ '\u2029' :=
    forall_staysWhole_iff.mp (List.all_eq_true.mp rfl)
  obtain ⟨sent, hsent, hserver⟩ := hsend
  have harrives :=
    (sourceOf_sends_iff hsent hserver hstatus hheaders hcharset hsends hpieces).mpr hwhole
  exact ⟨⟨sent, hsent, hserver⟩, hstatus, hheaders, hcharset, hsends, hpieces, by decide +kernel,
    harrives⟩

/-- A record whose text holds a line separator is sent as it should be and does not arrive. -/
theorem sourceOf_sends_lost :
    let r : Request := .new "http://a/s".toList (.object []) [] Request.defaultTimeout
    let rs : List StreamRecord := [⟨.chunk, ['a', '\u2028', 'b']⟩]
    let t := rs.flatMap fun e => "data: ".toList ++ e.written ++ ['\n', '\n']
    let source := sourceOf r (.response 200 [] [.octets (encode t)] none)
    Sends rs t ∧ source.records = [] := by
  intro r rs t source
  refine ⟨sends_written (by decide), ?_⟩
  decide +kernel

end Wire

end StoryPlayer
