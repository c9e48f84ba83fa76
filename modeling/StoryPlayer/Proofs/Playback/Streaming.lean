import StoryPlayer.Proofs.Playback.Basic
import StoryPlayer.Proofs.Stream.Whole

/-!
# Playing while the story streams in

Whatever is played in the meantime, a text that was delivered in records leaves the player with the
story of the whole text, and its choices are offered once. Playing does not touch the story, so what
the records make of it is all that there is to follow.

The choices are offered when the handling of the done record returns. Nothing but renders can keep
it from that, and no more of them than there are commands left.
-/

namespace StoryPlayer

namespace Playback

/-- An ingestor of which nothing is known feeds the player. -/
structure Fresh (s : Playback) : Prop where
  ingestor : s.ingestor = .new
  offers : s.offers = []
  offered : s.offered = []

/-- A text is being received, and no choices are to be offered yet. -/
structure Receiving (s : Playback) (sent : Text) : Prop where
  ingestor : s.ingestor.Receiving s.player sent
  offers : s.offers = []
  offered : s.offered = []

/-- The choices of a text are still to be offered, or they were offered once. -/
def Offering (s : Playback) (t : Text) : Prop :=
  s.offers = [t] ∧ s.offered = [] ∨
    s.offers = [] ∧ s.offered = [(readScript t Scene.empty).offered] ∧
      s.ingestor.choices = (readScript t Scene.empty).offered

/-- A text was received as a whole, and its choices are still to be offered or were offered once. -/
structure Whole (s : Playback) (t : Text) : Prop where
  ingestor : s.ingestor.Whole s.player t
  choices : s.Offering t

/-! ## Offers -/

/-- A call is left with its offer still to be made, or makes it. -/
theorem leave_offers (s : Playback) (w : Waiting) (a : Afterwards) :
    (s.leave w a).offers = s.offers ++ a.offer?.toList ∧ (s.leave w a).offered = s.offered ∧
        (s.leave w a).ingestor = s.ingestor ∨
      ∃ final, a.offer? = some final ∧ (s.leave w a).offers = s.offers ∧
        (s.leave w a).offered = s.offered ++ [(readScript final Scene.empty).offered] ∧
        (s.leave w a).ingestor = s.ingestor.offer final := by
  unfold leave
  split
  · left
    refine ⟨?_, rfl, rfl⟩
    cases hoffer : a.offer? <;> simp [offers, hoffer]
  · cases a with
    | nothing => exact .inl ⟨(List.append_nil _).symm, rfl, rfl⟩
    | fail f => exact .inl ⟨(List.append_nil _).symm, rfl, rfl⟩
    | offer final => exact .inr ⟨final, rfl, rfl, rfl, rfl⟩

/-- Playing makes at most one of the offers, and does nothing else to the ingestor. -/
theorem step_offers (s : Playback) {m : Move} (hrecord : m.record? = none) (hsource : m ≠ .giveUp) :
    (s.step m).offers.Perm s.offers ∧ (s.step m).offered = s.offered ∧
        (s.step m).ingestor = s.ingestor ∨
      ∃ final, s.offers.Perm (final :: (s.step m).offers) ∧
        (s.step m).offered = s.offered ++ [(readScript final Scene.empty).offered] ∧
        (s.step m).ingestor = s.ingestor.offer final := by
  cases m with
  | handle r => cases hrecord
  | giveUp => exact absurd rfl hsource
  | ask r =>
    rcases s.leave_offers (s.player.ask r) .nothing with ⟨hoffers, hrest⟩ | ⟨final, hfinal, -⟩
    · exact .inl ⟨.of_eq (hoffers.trans (List.append_nil _)), hrest⟩
    · cases hfinal
  | fire i =>
    cases ht : s.tasks[i]? with
    | none =>
      rw [step_fire_of_none ht]
      exact .inl ⟨.refl _, rfl, rfl⟩
    | some t =>
      rw [step_fire ht]
      rcases s.leave_offers (s.player.wake t) .nothing with ⟨hoffers, hrest⟩ | ⟨final, hfinal, -⟩
      · exact .inl ⟨.of_eq (hoffers.trans (List.append_nil _)), hrest⟩
      · cases hfinal
  | complete i =>
    cases hc : s.suspended[i]? with
    | none =>
      rw [step_complete_of_none hc]
      exact .inl ⟨.refl _, rfl, rfl⟩
    | some c =>
      have hperm := offers_perm hc
      let u := { s with suspended := s.suspended.eraseIdx i }
      rw [step_complete hc]
      rcases u.leave_offers (s.player.rendered c.ticket) c.afterwards with
        ⟨hoffers, hrest⟩ | ⟨final, hfinal, hoffers, hrest⟩
      · refine .inl ⟨?_, hrest⟩
        have hlate : (u.offers ++ c.afterwards.offer?.toList).Perm s.offers :=
          List.perm_append_comm.trans hperm.symm
        exact (List.Perm.of_eq hoffers).trans hlate
      · refine .inr ⟨final, ?_, hrest⟩
        rw [hfinal] at hperm
        exact hperm.trans (.of_eq (congrArg (final :: ·) hoffers.symm))

/-- Where no offer is due, playing leaves the ingestor alone. -/
theorem step_of_offers_eq_nil {s : Playback} (h : s.offers = []) {m : Move}
    (hrecord : m.record? = none) (hsource : m ≠ .giveUp) :
    (s.step m).offers = [] ∧ (s.step m).offered = s.offered ∧
      (s.step m).ingestor = s.ingestor := by
  rcases s.step_offers hrecord hsource with ⟨hoffers, hrest⟩ | ⟨final, hoffers, -⟩
  · rw [h, List.perm_nil] at hoffers
    exact ⟨hoffers, hrest⟩
  · rw [h] at hoffers
    cases hoffers.nil_eq

/-- Playing runs the player at most once, so it leads from one player to the other as a turn does.
The timer counts for nothing, since a task that is woken need not be held. -/
theorem step_relates (leads : Player → Player → Prop) (hrefl : ∀ p, leads p p)
    (htimer : ∀ {p q : Player} {t u : Option Timer},
      leads { p with timer := t } q → leads p { q with timer := u })
    (hturn : ∀ {p : Player} {c : Trigger} {w : Waiting}, p.Turn c w → c.isPlayback = true →
      leads p w.1)
    (s : Playback) {m : Move} (hm : m.isPlayback = true) (hrecord : m.record? = none)
    (hsource : m ≠ .giveUp) : leads s.player (s.step m).player := by
  cases m with
  | handle r => cases hrecord
  | giveUp => exact absurd rfl hsource
  | ask r =>
    rw [step_ask_player]
    exact hturn (s.player.ask_turn r) hm
  | complete i =>
    cases hc : s.suspended[i]? with
    | none =>
      rw [step_complete_of_none hc]
      exact hrefl _
    | some c =>
      rw [step_complete hc, leave_player]
      exact hturn (s.player.rendered_turn c.ticket) rfl
  | fire i =>
    cases ht : s.tasks[i]? with
    | none =>
      rw [step_fire_of_none ht]
      exact hrefl _
    | some t =>
      rw [step_fire ht, leave_player]
      obtain ⟨u, heq⟩ := s.player.wake_eq t
      rw [heq]
      exact htimer (hturn (Player.wake_turn rfl) t.trigger_isPlayback)

theorem step_sameStory (s : Playback) {m : Move} (hm : m.isPlayback = true)
    (hrecord : m.record? = none) (hsource : m ≠ .giveUp) :
    s.player.SameStory (s.step m).player :=
  step_relates Player.SameStory .refl (fun h => ⟨h.commands, h.scene, h.choices, h.streaming⟩)
    (fun h hc => h.sameStory hc) s hm hrecord hsource

/-! ## Receiving -/

theorem Fresh.receiving {s : Playback} (h : s.Fresh) : s.Receiving [] where
  ingestor := by
    rw [h.ingestor]
    exact Ingestor.new_receiving s.player
  offers := h.offers
  offered := h.offered

theorem Receiving.step {s : Playback} {sent : Text} (h : s.Receiving sent) {m : Move}
    (hm : m.isPlayback = true) (hrecord : m.record? = none) (hsource : m ≠ .giveUp) :
    (s.step m).Receiving sent := by
  have hsame := s.step_sameStory hm hrecord hsource
  obtain ⟨hoffers, hoffered, hingestor⟩ := step_of_offers_eq_nil h.offers hrecord hsource
  refine ⟨?_, hoffers, hoffered.trans h.offered⟩
  rw [hingestor]
  exact h.ingestor.sameStory hsame

/-- Playing makes the one offer that is due. -/
theorem Offering.step {s : Playback} {t : Text} (h : s.Offering t) {m : Move}
    (hrecord : m.record? = none) (hsource : m ≠ .giveUp) : (s.step m).Offering t := by
  unfold Offering
  rcases s.step_offers hrecord hsource with
    ⟨hoffers, hoffered, hingestor⟩ | ⟨final, hoffers, hoffered, hingestor⟩
  · rw [hoffered, hingestor]
    refine h.imp ?_ ?_
    · exact fun hdue => ⟨List.perm_singleton.mp (hdue.1 ▸ hoffers), hdue.2⟩
    · exact fun hmade => ⟨List.perm_nil.mp (hmade.1 ▸ hoffers), hmade.2⟩
  · rw [hoffered, hingestor]
    rcases h with ⟨hdue, hnone⟩ | ⟨hmade, -⟩
    · rw [hdue] at hoffers
      obtain ⟨rfl, hlast⟩ := List.cons.inj (List.singleton_perm.mp hoffers)
      exact .inr ⟨hlast.symm, by rw [hnone, List.nil_append], rfl⟩
    · rw [hmade] at hoffers
      cases hoffers.nil_eq

theorem Offering.of_offers_eq_nil {s : Playback} {t : Text} (h : s.Offering t)
    (hreturned : s.offers = []) :
    s.ingestor.choices = (readScript t Scene.empty).offered ∧
      s.offered = [(readScript t Scene.empty).offered] := by
  rcases h with ⟨hdue, -⟩ | ⟨-, hoffered, hchoices⟩
  · rw [hreturned] at hdue
    cases hdue
  · exact ⟨hchoices, hoffered⟩

/-- Playing changes nothing of a story that was received as a whole. -/
theorem Whole.step {s : Playback} {t : Text} (h : s.Whole t) {m : Move}
    (hm : m.isPlayback = true) (hrecord : m.record? = none) (hsource : m ≠ .giveUp) :
    (s.step m).Whole t := by
  have hkept := h.ingestor.sameStory (s.step_sameStory hm hrecord hsource)
  refine ⟨?_, h.choices.step hrecord hsource⟩
  rcases s.step_offers hrecord hsource with ⟨-, -, hingestor⟩ | ⟨final, -, -, hingestor⟩
  · rwa [hingestor]
  · rw [hingestor]
    exact hkept.offer final

theorem step_handle_offers (s : Playback) (r : StreamRecord) :
    (s.step (.handle r)).offers =
          s.offers ++ (s.ingestor.handle s.player r).afterwards.offer?.toList ∧
        (s.step (.handle r)).offered = s.offered ∧
        (s.step (.handle r)).ingestor = (s.ingestor.handle s.player r).ingestor ∨
      ∃ final, (s.ingestor.handle s.player r).afterwards.offer? = some final ∧
        (s.step (.handle r)).offers = s.offers ∧
        (s.step (.handle r)).offered = s.offered ++ [(readScript final Scene.empty).offered] ∧
        (s.step (.handle r)).ingestor = (s.ingestor.handle s.player r).ingestor.offer final :=
  leave_offers { s with
    ingestor := (s.ingestor.handle s.player r).ingestor } _ _

/-- The record after which choices are to be offered makes the offer due, or makes it at once. -/
theorem step_handle_offering {s : Playback} (hoffers : s.offers = []) (hoffered : s.offered = [])
    {r : StreamRecord} {t : Text}
    (hoffer : (s.ingestor.handle s.player r).afterwards = .offer t) :
    (s.step (.handle r)).Offering t := by
  have hcase := s.step_handle_offers r
  rw [hoffers, hoffered, hoffer] at hcase
  rcases hcase with ⟨hdue, hnone, -⟩ | ⟨final, hfinal, hmade, honce, hingestor⟩
  · exact .inl ⟨hdue, hnone⟩
  · cases hfinal
    refine .inr ⟨hmade, honce, ?_⟩
    rw [hingestor]
    rfl

/-- A record after which nothing is left to do leaves no choices to be offered. -/
theorem Receiving.step_handle {s : Playback} {sent sent' : Text} (h : s.Receiving sent)
    {r : StreamRecord}
    (hreceiving : (s.ingestor.handle s.player r).ingestor.Receiving
      (s.ingestor.handle s.player r).player sent')
    (hnothing : (s.ingestor.handle s.player r).afterwards = .nothing) :
    (s.step (.handle r)).Receiving sent' := by
  have hplayer := s.step_handle_player r
  have hoffers := s.step_handle_offers r
  rw [h.offers, h.offered, hnothing] at hoffers
  rcases hoffers with ⟨hnone, hoffered, hingestor⟩ | ⟨final, hfinal, -⟩
  · refine ⟨?_, hnone, hoffered⟩
    rwa [hingestor, hplayer]
  · cases hfinal

theorem Receiving.handle {s : Playback} {sent t : Text} (h : s.Receiving sent) {r : StreamRecord}
    {rs : List StreamRecord} (hrecords : Delivers t sent (r :: rs)) :
    (∃ sent', Delivers t sent' rs ∧ (s.step (.handle r)).Receiving sent') ∨
      rs = [] ∧ (s.step (.handle r)).Whole t := by
  rcases h.ingestor.handle hrecords with
    ⟨sent', hrest, hreceiving, hnothing⟩ | ⟨hlast, hwhole, hoffer⟩
  · exact .inl ⟨sent', hrest, h.step_handle hreceiving hnothing⟩
  · have hplayer := s.step_handle_player r
    refine .inr ⟨hlast, ?_, step_handle_offering h.offers h.offered hoffer⟩
    rcases s.step_handle_offers r with ⟨-, -, hingestor⟩ | ⟨final, -, -, -, hingestor⟩
    · rwa [hingestor, hplayer]
    · rw [hingestor, hplayer]
      exact hwhole.offer final

theorem Whole.run {s : Playback} {t : Text} (h : s.Whole t) {ms : List Move}
    (hms : ∀ m ∈ ms, m.isPlayback = true) (hsource : .giveUp ∉ ms)
    (hrecords : ms.filterMap Move.record? = []) : (s.run ms).Whole t := by
  refine run_keeps (Whole · t)
    (fun m => m.isPlayback = true ∧ m.record? = none ∧ m ≠ .giveUp) ?_ s h ms ?_
  · rintro s m ⟨hm, hrecord, hsource⟩ hs
    exact hs.step hm hrecord hsource
  · intro m hm
    refine ⟨hms m hm, List.filterMap_eq_nil_iff.mp hrecords m hm, ?_⟩
    rintro rfl
    exact hsource hm

/-- Records that deliver a text complete its story, whatever is played between them. -/
theorem Receiving.run {s : Playback} {sent t : Text} (h : s.Receiving sent) {ms : List Move}
    (hms : ∀ m ∈ ms, m.isPlayback = true) (hsource : .giveUp ∉ ms)
    (hrecords : Delivers t sent (ms.filterMap Move.record?)) : (s.run ms).Whole t := by
  induction ms generalizing s sent with
  | nil => cases hrecords
  | cons m ms ih =>
    have hm := hms m List.mem_cons_self
    have hms' : ∀ n ∈ ms, n.isPlayback = true := fun n hn => hms n (List.mem_cons_of_mem m hn)
    obtain ⟨hgive, hsource'⟩ := List.ne_and_not_mem_of_not_mem_cons hsource
    cases hrecord : m.record? with
    | none =>
      rw [List.filterMap_cons_none hrecord] at hrecords
      exact ih (h.step hm hrecord hgive.symm) hms' hsource' hrecords
    | some r =>
      obtain rfl : m = .handle r := by
        cases m <;> cases hrecord
        rfl
      rw [List.filterMap_cons_some hrecord] at hrecords
      rcases h.handle hrecords with ⟨sent', hrest, hreceiving⟩ | ⟨hlast, hwhole⟩
      · exact ih hreceiving hms' hsource' hrest
      · exact hwhole.run hms' hsource' hlast

/-! ## Calls that return -/

/-- How many renders can be done before all calls have returned: one for each call, and one for each
command ahead. -/
def left (s : Playback) : Nat :=
  s.tickets.length + (s.player.store.size - s.player.store.cursor)

theorem leave_left (s : Playback) (w : Waiting) (a : Afterwards) :
    (s.leave w a).left =
      s.tickets.length + (w.2.toList.length + (w.1.store.size - w.1.store.cursor)) := by
  rw [left, leave_tickets, leave_player, List.length_append, Nat.add_assoc]

/-- A render that is done leads to another only where it takes the cursor on. -/
theorem rendered_left (p : Player) (t : Ticket) :
    (p.rendered t).2.toList.length +
        ((p.rendered t).1.store.size - (p.rendered t).1.store.cursor) ≤
      p.store.size - p.store.cursor := by
  have hturn := p.rendered_turn t
  generalize p.rendered t = w at hturn ⊢
  cases hturn with
  | onward h hnext =>
    obtain ⟨hlt, rfl⟩ := Store.advance?_eq_some hnext
    obtain ⟨c, hc⟩ := Store.exists_current? (s := { p.store with cursor := p.store.cursor + 1 }) hlt
    rw [Player.process_of_some
      (p := { p with store := { p.store with cursor := p.store.cursor + 1 } }) hc]
    change 1 + (p.store.size - (p.store.cursor + 1)) ≤ p.store.size - p.store.cursor
    omega
  | exhaust h hlast => exact Nat.le_of_eq (Nat.zero_add _)
  | spent h hlast => exact Nat.le_of_eq (Nat.zero_add _)
  | late h => exact Nat.le_of_eq (Nat.zero_add _)
  | reveal h htext => exact Nat.le_of_eq (Nat.zero_add _)
  | stayOn h htext hcast =>
    rw [Player.stayOn_eq]
    split <;> exact Nat.le_of_eq (Nat.zero_add _)

/-- Renders that are done one after another let every call return. -/
theorem run_drains (s : Playback) :
    ∃ n, (s.run (List.replicate n (.complete 0))).suspended = [] := by
  induction hleft : s.left using Nat.strongRecOn generalizing s with
  | ind k ih =>
    cases hs : s.suspended with
    | nil => exact ⟨0, hs⟩
    | cons c cs =>
      have hc : s.suspended[0]? = some c := by rw [hs]; rfl
      have hlt : (s.step (.complete 0)).left < k := by
        rw [step_complete hc, leave_left, ← hleft, left]
        have hrendered := rendered_left s.player c.ticket
        have hfewer := (tickets_perm hc).length_eq
        rw [List.length_cons] at hfewer
        dsimp only [tickets] at hfewer ⊢
        omega
      obtain ⟨n, hn⟩ := ih _ hlt _ rfl
      exact ⟨n + 1, hn⟩

/-- A text that a fresh ingestor receives in records, cut anywhere and with anything played between
them, leaves the player with what reading the whole text gives: its commands, its scene and its
choices. Nothing is left in the line buffer, all of the text was kept, and streaming is off. Once
the handling of the done record has returned, which renders that are done bring about, the choices
of the text were offered, and only once. -/
theorem run_streams_whole {s : Playback} (h : s.Fresh) {t : Text} {ms : List Move}
    (hms : ∀ m ∈ ms, m.isPlayback = true) (hsource : .giveUp ∉ ms)
    (hrecords : Delivers t [] (ms.filterMap Move.record?)) :
    let e := s.run ms
    let r := readScript t Scene.empty
    e.player.store.commands = r.commands ∧ e.player.scene = r.scene ∧
      e.player.choices = r.offered ∧ e.ingestor.lineBuffer = [] ∧ e.ingestor.rawText = t ∧
      e.player.streaming = false ∧
      (e.offers = [] → e.ingestor.choices = r.offered ∧ e.offered = [r.offered]) ∧
      ∃ n, (e.run (List.replicate n (.complete 0))).offers = [] := by
  intro e r
  have hwhole : e.Whole t := h.receiving.run hms hsource hrecords
  obtain ⟨hraw, hbuffer, hstream, hstory⟩ := hwhole.ingestor
  obtain ⟨n, hn⟩ := e.run_drains
  exact ⟨hstory.commands, hstory.scene, hstory.choices, hbuffer, hraw, hstream,
    hwhole.choices.of_offers_eq_nil, n, by rw [offers, hn, List.filterMap_nil]⟩

/-- A directive that is cut in two and choices that come with the done record are read as ever. -/
theorem run_streams_cut_lines :
    let t : Text := ['L', 'O', 'C', ':', 'b', '\n', 'x', '\n', 'S', 'T', 'P', ':', 'c', '/', 'd']
    let ms : List Move :=
      [.handle ⟨.chunk, ['L', 'O']⟩, .handle ⟨.setupReady, []⟩, .ask .toggleAuto,
        .handle ⟨.chunk, ['C', ':', 'b', '\n', 'x']⟩, .complete 0, .handle ⟨.done, t⟩, .fire 0]
    (new .default).Fresh ∧ (∀ m ∈ ms, m.isPlayback = true) ∧ .giveUp ∉ ms ∧
      Delivers t [] (ms.filterMap Move.record?) ∧
      ((new .default).run ms).player.store.commands = (readScript t Scene.empty).commands ∧
      ((new .default).run ms).offered = [[['c'], ['d']]] := by
  intro t ms
  have hfresh : (new .default).Fresh := ⟨rfl, rfl, rfl⟩
  have hms : ∀ m ∈ ms, m.isPlayback = true := by decide
  have hsource : .giveUp ∉ ms := by decide
  have hrecords : Delivers t [] (ms.filterMap Move.record?) :=
    .chunk _ (.setup (.inl rfl) (.chunk _ (.done ⟨_, rfl⟩)))
  obtain ⟨hcommands, -, -, -, -, -, hreturned, -⟩ :=
    run_streams_whole hfresh hms hsource hrecords
  have hoffers : ((new .default).run ms).offers = [] := by decide +kernel
  have hchoices : (readScript t Scene.empty).offered = [['c'], ['d']] := by decide +kernel
  obtain ⟨-, hoffered⟩ := hreturned hoffers
  rw [hchoices] at hoffered
  exact ⟨hfresh, hms, hsource, hrecords, hcommands, hoffered⟩

end Playback

end StoryPlayer
