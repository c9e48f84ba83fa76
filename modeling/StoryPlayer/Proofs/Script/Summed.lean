import Mathlib.Data.List.Basic
import Mathlib.Data.List.Nodup
import StoryPlayer.Proofs.Script.RoundTrip
import StoryPlayer.Script.Summary

/-!
# What a summary holds

A summary is made command by command. What it holds is told by the commands as a whole: the places
they move to and the members they list, without those that came before, and how many there are of
each kind. Without those that came before, what a list holds only grows when the list goes on, and so
does a summary.
-/

namespace StoryPlayer

/-! ## Texts without those that came before -/

/-- To put a text behind the others unless it is among them is to put it behind and then leave out
what came before. -/
theorem addOnce_eraseDups (ts : List Text) (t : Text) :
    addOnce t ts.eraseDups = (ts ++ [t]).eraseDups := by
  rw [addOnce, List.eraseDups_append]
  split
  next hmem =>
    have hold : [t].removeAll ts = [] := by simpa [List.removeAll] using List.mem_eraseDups.mp hmem
    rw [hold, List.eraseDups_nil, List.append_nil]
  next hmem =>
    have hnew : [t].removeAll ts = [t] := by
      simpa [List.removeAll] using mt List.mem_eraseDups.mpr hmem
    rw [hnew]
    rfl

theorem nodup_eraseDups (ts : List Text) : ts.eraseDups.Nodup := by
  induction ts using List.reverseRecOn with
  | nil => exact List.nodup_nil
  | append_singleton ts t ih =>
    rw [← addOnce_eraseDups, addOnce]
    split
    · exact ih
    next hmem =>
      rw [← List.concat_eq_append]
      exact List.Nodup.concat hmem ih

theorem eraseDups_prefix_append (ts us : List Text) : ts.eraseDups <+: (ts ++ us).eraseDups := by
  rw [List.eraseDups_append]
  exact List.prefix_append _ _

/-! ## Members and their moods -/

/-- The moods in which members of that name are listed, each once and in the order in which they
first come. -/
def moodsListed (ms : List CastMember) (name : Text) : List Text :=
  ((ms.filter (·.name = name)).map CastMember.mood).eraseDups

/-- The names of members, each once and in the order in which they first come, with their moods. -/
def castListed (ms : List CastMember) : List (Text × List Text) :=
  (ms.map CastMember.name).eraseDups.map fun name => (name, moodsListed ms name)

theorem moodsListed_concat_self (ms : List CastMember) (m : CastMember) :
    moodsListed (ms ++ [m]) m.name = addOnce m.mood (moodsListed ms m.name) := by
  rw [moodsListed, moodsListed, addOnce_eraseDups]
  simp

theorem moodsListed_concat_of_ne (ms : List CastMember) {m : CastMember} {name : Text}
    (h : name ≠ m.name) : moodsListed (ms ++ [m]) name = moodsListed ms name := by
  rw [moodsListed, moodsListed]
  simp [h.symm]

theorem moodsListed_of_notMem {ms : List CastMember} {name : Text}
    (h : name ∉ ms.map CastMember.name) : moodsListed ms name = [] := by
  have hnone : ms.filter (·.name = name) = [] := by
    rw [List.filter_eq_nil_iff]
    intro m hm hname
    rw [← of_decide_eq_true hname] at h
    exact h (List.mem_map_of_mem hm)
  rw [moodsListed, hnone]
  rfl

/-- A mood is noted under a name that is there already. -/
theorem addMood_of_mem {m : CastMember} {names : List Text} (hnodup : names.Nodup)
    (hmem : m.name ∈ names) {moods moods' : Text → List Text}
    (hself : moods' m.name = addOnce m.mood (moods m.name))
    (hne : ∀ name, name ≠ m.name → moods' name = moods name) :
    addMood m (names.map fun name => (name, moods name)) =
      names.map fun name => (name, moods' name) := by
  induction names with
  | nil => cases hmem
  | cons name names ih =>
    obtain ⟨hname, hnames⟩ := List.nodup_cons.mp hnodup
    rw [List.map_cons, List.map_cons, addMood]
    by_cases heq : name = m.name
    · subst heq
      rw [if_pos rfl, ← hself]
      refine congrArg (_ :: ·) (List.map_congr_left fun other hother => ?_)
      rw [hne other (ne_of_mem_of_not_mem hother hname)]
    · rw [if_neg heq, hne name heq, ih hnames (List.mem_of_ne_of_mem (Ne.symm heq) hmem)]

theorem addMood_of_notMem {m : CastMember} {names : List Text} (hmem : m.name ∉ names)
    (moods : Text → List Text) :
    addMood m (names.map fun name => (name, moods name)) =
      (names.map fun name => (name, moods name)) ++ [(m.name, [m.mood])] := by
  induction names with
  | nil => rfl
  | cons name names ih =>
    obtain ⟨hname, hnames⟩ := List.ne_and_not_mem_of_not_mem_cons hmem
    rw [List.map_cons, addMood, if_neg (Ne.symm hname), ih hnames]
    rfl

theorem addMood_castListed (ms : List CastMember) (m : CastMember) :
    addMood m (castListed ms) = castListed (ms ++ [m]) := by
  have hnames : ((ms ++ [m]).map CastMember.name).eraseDups =
      addOnce m.name (ms.map CastMember.name).eraseDups := by
    rw [List.map_append, addOnce_eraseDups]
    rfl
  rw [castListed, castListed, hnames, addOnce]
  split
  next hmem =>
    exact addMood_of_mem (nodup_eraseDups _) hmem (moodsListed_concat_self ms m)
      fun name hne => moodsListed_concat_of_ne ms hne
  next hmem =>
    have hnew : moodsListed (ms ++ [m]) m.name = [m.mood] := by
      rw [moodsListed_concat_self, moodsListed_of_notMem (mt List.mem_eraseDups.mpr hmem)]
      rfl
    have hold : ∀ name ∈ (ms.map CastMember.name).eraseDups,
        (name, moodsListed ms name) = (name, moodsListed (ms ++ [m]) name) := fun name hname => by
      rw [moodsListed_concat_of_ne ms (ne_of_mem_of_not_mem hname hmem)]
    rw [addMood_of_notMem hmem, List.map_append, ← List.map_congr_left hold, List.map_singleton,
      hnew]

theorem foldl_addMood (ms more : List CastMember) :
    more.foldl (fun cast m => addMood m cast) (castListed ms) = castListed (ms ++ more) := by
  induction more generalizing ms with
  | nil => rw [List.append_nil, List.foldl_nil]
  | cons m more ih => rw [List.foldl_cons, addMood_castListed, ih, List.append_assoc]; rfl

theorem map_fst_castListed (ms : List CastMember) :
    (castListed ms).map Prod.fst = (ms.map CastMember.name).eraseDups := by
  rw [castListed, List.map_map]
  exact List.map_id _

theorem castListed_append {ms : List CastMember} {name : Text} {moods : List Text}
    (h : (name, moods) ∈ castListed ms) (ns : List CastMember) :
    ∃ more, (name, moods ++ more) ∈ castListed (ms ++ ns) := by
  obtain ⟨name, hname, heq⟩ := List.mem_map.mp h
  cases heq
  obtain ⟨more, hmore⟩ : moodsListed ms name <+: moodsListed (ms ++ ns) name := by
    rw [moodsListed, moodsListed, List.filter_append, List.map_append]
    exact eraseDups_prefix_append _ _
  refine ⟨more, List.mem_map.mpr ⟨name, ?_, congrArg (name, ·) hmore.symm⟩⟩
  rw [List.map_append]
  exact (eraseDups_prefix_append _ _).subset hname

/-! ## Commands -/

/-- The members that the casts among commands list. -/
def listedMembers (cs : List Command) : List CastMember :=
  (cs.filterMap Command.members?).flatten

theorem listedMembers_append (cs ds : List Command) :
    listedMembers (cs ++ ds) = listedMembers cs ++ listedMembers ds := by
  rw [listedMembers, List.filterMap_append, List.flatten_append]
  rfl

namespace Summary

theorem ofCommands_concat (cs : List Command) (c : Command) :
    ofCommands (cs ++ [c]) = (ofCommands cs).add c :=
  List.foldl_concat add empty c cs

theorem ofCommands_places (cs : List Command) :
    (ofCommands cs).places = (cs.filterMap Command.place?).eraseDups := by
  induction cs using List.reverseRecOn with
  | nil => rfl
  | append_singleton cs c ih =>
    rw [ofCommands_concat, List.filterMap_append]
    cases c with
    | location place colours => exact (congrArg (addOnce place) ih).trans (addOnce_eraseDups _ _)
    | _ => exact ih.trans (congrArg List.eraseDups (List.append_nil _).symm)

theorem ofCommands_cast (cs : List Command) :
    (ofCommands cs).cast = castListed (listedMembers cs) := by
  induction cs using List.reverseRecOn with
  | nil => rfl
  | append_singleton cs c ih =>
    rw [ofCommands_concat, listedMembers_append]
    cases c with
    | cast members =>
      have hmembers : listedMembers [.cast members] = members := List.append_nil members
      rw [add, ih, foldl_addMood, hmembers]
    | _ => exact ih.trans (congrArg castListed (List.append_nil _).symm)

theorem ofCommands_counts (cs : List Command) :
    (ofCommands cs).dialogues = cs.countP (·.kind = .dialogue) ∧
      (ofCommands cs).actions = cs.countP (·.kind = .action) ∧
      (ofCommands cs).total = cs.length := by
  induction cs using List.reverseRecOn with
  | nil => exact ⟨rfl, rfl, rfl⟩
  | append_singleton cs c ih =>
    obtain ⟨hdialogues, hactions, htotal⟩ := ih
    rw [ofCommands_concat, List.countP_append, List.countP_append, List.length_append]
    cases c <;> simp [add, Command.kind, hdialogues, hactions, htotal]

theorem length_eq_countP (cs : List Command) :
    cs.length = cs.countP (·.kind = .dialogue) + cs.countP (·.kind = .action) +
      cs.countP (·.kind = .location) + cs.countP (·.kind = .cast) := by
  induction cs with
  | nil => rfl
  | cons c cs ih =>
    rw [List.length_cons, ih]
    cases c <;> simp [Command.kind] <;> omega

/-- The summary of commands lists their places and the names of the members of their casts, each
once and in the order in which they first come, and under every name the moods in which it is listed
in the same way; it counts the dialogues and the actions, and as a whole these with the locations
and casts. When more commands follow, the counts add up, and the places, the names and the moods
under every name go on from what they were. -/
theorem ofCommands_exact (a b : List Command) :
    let s := ofCommands a
    let t := ofCommands (a ++ b)
    s.places = (a.filterMap Command.place?).eraseDups ∧
      s.cast = ((listedMembers a).map CastMember.name).eraseDups.map (fun name =>
        (name, (((listedMembers a).filter (·.name = name)).map CastMember.mood).eraseDups)) ∧
      s.dialogues = a.countP (·.kind = .dialogue) ∧ s.actions = a.countP (·.kind = .action) ∧
      s.total = s.dialogues + s.actions + a.countP (·.kind = .location) +
        a.countP (·.kind = .cast) ∧
      t.dialogues = s.dialogues + (ofCommands b).dialogues ∧
      t.actions = s.actions + (ofCommands b).actions ∧
      t.total = s.total + (ofCommands b).total ∧
      s.places <+: t.places ∧ s.cast.map Prod.fst <+: t.cast.map Prod.fst ∧
      ∀ name moods, (name, moods) ∈ s.cast → ∃ more, (name, moods ++ more) ∈ t.cast := by
  intro s t
  obtain ⟨hdialogues, hactions, htotal⟩ := ofCommands_counts a
  obtain ⟨hdialogues', hactions', htotal'⟩ := ofCommands_counts b
  obtain ⟨hdialogues'', hactions'', htotal''⟩ := ofCommands_counts (a ++ b)
  have hcast : s.cast = castListed (listedMembers a) := ofCommands_cast a
  have hcast' : t.cast = castListed (listedMembers a ++ listedMembers b) := by
    rw [← listedMembers_append]
    exact ofCommands_cast (a ++ b)
  refine ⟨ofCommands_places a, hcast, hdialogues, hactions, ?_, ?_, ?_, ?_, ?_, ?_, ?_⟩
  · rw [htotal, hdialogues, hactions, length_eq_countP]
  · rw [hdialogues'', hdialogues, hdialogues', List.countP_append]
  · rw [hactions'', hactions, hactions', List.countP_append]
  · rw [htotal'', htotal, htotal', List.length_append]
  · rw [ofCommands_places, ofCommands_places, List.filterMap_append]
    exact eraseDups_prefix_append _ _
  · rw [hcast, hcast', map_fst_castListed, map_fst_castListed, List.map_append]
    exact eraseDups_prefix_append _ _
  · intro name moods hmem
    rw [hcast] at hmem
    rw [hcast']
    exact castListed_append hmem (listedMembers b)

/-- A name that one cast lists twice has one entry, and a later cast adds a mood to it. -/
theorem ofCommands_exact_twice :
    let member : Char → CastMember := fun mood => ⟨['a'], [mood]⟩
    let a : List Command := [.cast [member 'x', member 'y', member 'x']]
    let b : List Command := [.location ['b'] [], .cast [member 'y', member 'z']]
    (['a'], [['x'], ['y']]) ∈ (ofCommands a).cast ∧
      (∃ more, (['a'], [['x'], ['y']] ++ more) ∈ (ofCommands (a ++ b)).cast) ∧
      ofCommands (a ++ b) = ⟨[['b']], [(['a'], [['x'], ['y'], ['z']])], 0, 0, 3⟩ := by
  intro member a b
  have hlisted : (['a'], [['x'], ['y']]) ∈ (ofCommands a).cast := by decide
  obtain ⟨-, -, -, -, -, -, -, -, -, -, hgrows⟩ := ofCommands_exact a b
  exact ⟨hlisted, hgrows _ _ hlisted, by decide⟩

end Summary

end StoryPlayer
