import Shaping.Proofs.Config.Saved

/-!
# What commands do to files

A command that does not change the configuration leaves all files alone, and so does one that fails.  A
command that changes the configuration and succeeds leaves in its file what was said there before, with one
thing changed: the one that the command names (`FileTree.edits_touch_what_they_name`).

There are two reasons for this.  A decision is made before anything is written, and the only errand that
writes is to save a configuration, so the first thing to know of a command is which configuration it asks to
be saved (`Command.exists_save`).  For this an inquiry is taken apart at its parts: what the whole
`Answers`, its parts have answered.  What was looked at only to be checked, like a plan with its defaults
filled in or a shaper that was given the configuration, is not among the parts that are saved.

Then, to save is to make directories and to write one file (`FileTree.run_save`).  Making directories
touches no file, and neither does writing that fails.

The change is a relation between two configurations (`Config.EditedBy`), and not the function that the code
applies.  It says of the list of pods what stands in front of the changed one and behind it, which is what
one would like to know, and it does not say in which way the code gets there.
-/

set_option autoImplicit false

namespace Shaping

/-! ## What inquiries answer

A decision is a long sequence of steps, each of which may fail and most of which leave notes.  To run it
would mean to carry notes along and to split at every step.  Instead there is one rule for two steps in
turn: if the whole has come to an answer, so has each of them.  Notes are forgotten by saying that there are
some. -/

namespace Inquiry

variable {α β : Type}

/-- The inquiry comes to an answer, for some notes that were left before. -/
def Answers (q : Inquiry α) (a : α) : Prop := ∃ notes, (q.run.run notes).1 = .ok a

theorem run_bind (q : Inquiry α) (f : α → Inquiry β) (notes : Array Note) :
    (q >>= f).run.run notes =
      match q.run.run notes with
      | (.ok a, notes) => (f a).run.run notes
      | (.error stop, notes) => (.error stop, notes) := by
  show (ExceptT.bind q f).run.run notes = _
  simp only [ExceptT.bind, ExceptT.run, ExceptT.mk, StateT.run, bind, StateT.bind]
  cases q notes with
  | mk result notes => cases result <;> rfl

/-- What comes of two inquiries in turn has come of both. -/
theorem Answers.of_bind {q : Inquiry α} {f : α → Inquiry β} {b : β} (h : (q >>= f).Answers b) :
    ∃ a, q.Answers a ∧ (f a).Answers b := by
  obtain ⟨notes, hrun⟩ := h
  rw [run_bind] at hrun
  cases hq : q.run.run notes with
  | mk result notes' =>
    rw [hq] at hrun
    cases result with
    | error stop => cases hrun
    | ok a => exact ⟨a, ⟨notes, congrArg Prod.fst hq⟩, ⟨notes', hrun⟩⟩

theorem Answers.of_pure {a b : α} (h : (pure a : Inquiry α).Answers b) : a = b := by
  obtain ⟨notes, hrun⟩ := h
  exact Except.ok.inj hrun

theorem not_answers_throw (stop : Stop) (a : α) : ¬ (throw stop : Inquiry α).Answers a :=
  fun ⟨_, hrun⟩ => nomatch (show Except.error stop = Except.ok a from hrun)

theorem not_answers_fail (f : Failure) (a : α) : ¬ (fail f : Inquiry α).Answers a :=
  not_answers_throw (.failed f) a

/-- What comes of an inquiry after notes were left comes of the inquiry. -/
theorem Answers.of_note {notes : Array Note} {f : Unit → Inquiry β} {b : β}
    (h : (note notes >>= f).Answers b) : (f ()).Answers b := by
  obtain ⟨_, -, hf⟩ := h.of_bind
  exact hf

theorem Answers.of_within {context : Context} {q : Inquiry α} {a : α} (h : (within context q).Answers a) :
    q.Answers a := by
  obtain ⟨notes, hrun⟩ := h
  change ((ExceptT.tryCatch q _).run.run notes).1 = _ at hrun
  simp only [ExceptT.tryCatch, ExceptT.run, ExceptT.mk, StateT.run, bind, StateT.bind] at hrun
  cases hq : q notes with
  | mk result notes' =>
    rw [hq] at hrun
    cases result with
    | error stop => cases stop <;> cases hrun
    | ok b => exact ⟨notes, (congrArg Prod.fst hq).trans hrun⟩

end Inquiry

/-! ## The parts of a decision

For each part that can be found in a decision there is one lemma, about what it means that it has come to an
answer.  For rates and plans that is a relation to the text, so that no text need be read in a proof. -/

/-- What the configuration file says.  One that does not exist says what is standard. -/
inductive Config.SaidBy : Except FileError String → Config → Prop
  | text {text : String} {c : Config} : ofText text = .ok c → SaidBy (.ok text) c
  | absent {e : FileError} : e.isAbsence = true → SaidBy (.error e) standard

/-- The rate that is written, or zero if there is none. -/
inductive Rate.WrittenBy : Option String → UInt64 → Prop
  | absent : WrittenBy none 0
  | text {text : String} {rate : UInt64} : ofText? text = .ok rate → WrittenBy (some text) rate

/-- The plan that is written, rate by rate. -/
structure WrittenPlan.Means (written : WrittenPlan) (plan : BandwidthPlan) : Prop where
  guaranteed : Rate.WrittenBy written.guaranteed plan.guaranteed
  burstable : Rate.WrittenBy written.burstable plan.burstable
  least : ∀ t, Rate.WrittenBy (written.tiers.get t).1 (plan.tiers.get t).least
  most : ∀ t, Rate.WrittenBy (written.tiers.get t).2 (plan.tiers.get t).most

namespace Inquiry.Answers

theorem of_contents {context : Context} {file : Except FileError String} {text : String}
    (h : (contents context file).Answers text) : file = .ok text := by
  cases file with
  | error e => exact absurd h (not_answers_fail _ _)
  | ok found => rw [of_pure h]

/-- The configuration that is found is the one that the file says. -/
theorem of_config {docs : Documents} {path : String} {c : Config} (h : (config docs).Answers (path, c)) :
    docs.configPath = some path ∧ Config.SaidBy docs.config c := by
  obtain ⟨configPath, file, other⟩ := docs
  rw [config] at h
  cases configPath with
  | none =>
    obtain ⟨_, hfail, -⟩ := h.of_bind
    exact absurd hfail (not_answers_fail _ _)
  | some found =>
    obtain ⟨path', hpath, h⟩ := h.of_bind
    cases hpath.of_pure
    cases file with
    | error e =>
      dsimp only at h
      split at h
      · rename_i habsent
        cases h.of_note.of_pure
        exact ⟨rfl, .absent habsent⟩
      · exact absurd h (not_answers_fail _ _)
    | ok text =>
      dsimp only at h
      split at h
      · exact absurd h (not_answers_fail _ _)
      · rename_i c' hc'
        cases h.of_note.of_pure
        exact ⟨rfl, .text hc'⟩

theorem of_rate {written : Option String} {w : UInt64} (h : (rate written).Answers w) :
    Rate.WrittenBy written w := by
  -- the equations of `rate` would have Lean read the text
  delta rate at h
  cases written with
  | none =>
    dsimp only at h
    rw [← h.of_pure]
    exact .absent
  | some text =>
    dsimp only at h
    split at h
    · rename_i found hfound
      rw [← h.of_pure]
      exact .text hfound
    · exact absurd h (not_answers_fail _ _)

theorem of_bounds {written : Option String × Option String} {b : Bounds} (h : (bounds written).Answers b) :
    Rate.WrittenBy written.1 b.least ∧ Rate.WrittenBy written.2 b.most := by
  obtain ⟨least, hleast, h⟩ := h.of_bind
  obtain ⟨most, hmost, h⟩ := h.of_bind
  cases h.of_pure
  exact ⟨hleast.of_rate, hmost.of_rate⟩

theorem of_plan {written : WrittenPlan} {p : BandwidthPlan} (h : (plan written).Answers p) :
    written.Means p := by
  obtain ⟨guaranteed, hguaranteed, h⟩ := h.of_bind
  obtain ⟨burstable, hburstable, h⟩ := h.of_bind
  obtain ⟨l0, hl0, h⟩ := h.of_bind
  obtain ⟨l1, hl1, h⟩ := h.of_bind
  obtain ⟨l2, hl2, h⟩ := h.of_bind
  cases h.of_pure
  refine ⟨hguaranteed.of_rate, hburstable.of_rate, fun t => ?_, fun t => ?_⟩
  · cases t with
    | l0 => exact hl0.of_bounds.1
    | l1 => exact hl1.of_bounds.1
    | l2 => exact hl2.of_bounds.1
  · cases t with
    | l0 => exact hl0.of_bounds.2
    | l1 => exact hl1.of_bounds.2
    | l2 => exact hl2.of_bounds.2

/-- A shaper that was given a configuration took it. -/
theorem of_shaper {c : Config} {s : Shaper} (h : (shaper c).Answers s) : c.load.1 = .ok s := by
  rw [shaper] at h
  have h := h.of_note
  split at h
  · rename_i found hfound
    rw [← h.of_pure]
    exact hfound
  · exact absurd h (not_answers_throw _ _)

/-- A configuration that was checked passed. -/
theorem of_checked {c filled : Config} (h : (checked c).Answers filled) : c.check.1 = .ok () := by
  rw [checked] at h
  have h := h.of_note
  split at h
  · assumption
  · exact absurd h (not_answers_fail _ _)

end Inquiry.Answers

/-! ## Decisions

A command is taken apart with the rule for sequences, part by part in the order in which they stand, down to
its answer.  The two results for commands are proved in the same way, one for those that save and one for
those that do not. -/

/-- Does the command change the configuration? -/
def Command.isEdit : Command → Bool
  | .importLegacy _ write => write
  | .setPlan .. | .setPod .. | .deletePod _ => true
  | _ => false

/-- What a command makes of a configuration, given the other file that it names. -/
inductive Config.EditedBy (other : Except FileError String) : Command → Config → Config → Prop
  /-- Both plans are those of the older file. -/
  | plans {file text : String} {c : Config} : other = .ok text →
      EditedBy other (.importLegacy file true) c { c with plans := Legacy.plans text }
  /-- The plan of one direction is the one that is written. -/
  | plan {d : Direction} {written : WrittenPlan} {c c' : Config} : written.Means (c'.plans.get d) →
      (∀ d', d' ≠ d → c'.plans.get d' = c.plans.get d') → c'.pods = c.pods → c'.options = c.options →
      EditedBy other (.setPlan d written) c c'
  /-- The first pod with the id is replaced. -/
  | replaced {pod old : Pod} {receive send : Option String} {receiveRate sendRate : UInt64} {c : Config}
      {before after : List Pod} : Rate.WrittenBy receive receiveRate → Rate.WrittenBy send sendRate →
      c.pods = before ++ old :: after → old.id = pod.id → (∀ p ∈ before, p.id ≠ pod.id) →
      EditedBy other (.setPod pod receive send) c
        { c with pods := before ++ { pod with receiveRate, sendRate } :: after }
  /-- There is no pod with the id yet. -/
  | added {pod : Pod} {receive send : Option String} {receiveRate sendRate : UInt64} {c : Config} :
      Rate.WrittenBy receive receiveRate → Rate.WrittenBy send sendRate → (∀ p ∈ c.pods, p.id ≠ pod.id) →
      EditedBy other (.setPod pod receive send) c
        { c with pods := c.pods ++ [{ pod with receiveRate, sendRate }] }
  /-- The first pod with the id is removed. -/
  | removed {id : String} {old : Pod} {c : Config} {before after : List Pod} :
      c.pods = before ++ old :: after → old.id = id → (∀ p ∈ before, p.id ≠ id) →
      EditedBy other (.deletePod id) c { c with pods := before ++ after }

namespace Config

variable {other : Except FileError String}

/-- A pod is inserted in the place of the first one with its id, or at the end. -/
theorem insertPod_cases (pod : Pod) (pods : List Pod) :
    (∃ before old after, pods = before ++ old :: after ∧ old.id = pod.id ∧ (∀ p ∈ before, p.id ≠ pod.id) ∧
        insertPod pod pods = before ++ pod :: after) ∨
      (∀ p ∈ pods, p.id ≠ pod.id) ∧ insertPod pod pods = pods ++ [pod] := by
  induction pods with
  | nil => exact .inr ⟨fun _ hp => (List.not_mem_nil hp).elim, rfl⟩
  | cons p pods ih =>
    rw [insertPod]
    split
    · rename_i hid
      exact .inl ⟨[], p, pods, rfl, hid, fun _ hp => (List.not_mem_nil hp).elim, rfl⟩
    · rename_i hid
      rcases ih with ⟨before, old, after, rfl, hold, hbefore, hinsert⟩ | ⟨hnone, hinsert⟩
      · exact .inl ⟨p :: before, old, after, rfl, hold, List.forall_mem_cons.mpr ⟨hid, hbefore⟩,
          by rw [hinsert, List.cons_append]⟩
      · exact .inr ⟨List.forall_mem_cons.mpr ⟨hid, hnone⟩, by rw [hinsert, List.cons_append]⟩

theorem EditedBy.setPod (c : Config) (pod : Pod) {receive send : Option String}
    {receiveRate sendRate : UInt64} (hreceive : Rate.WrittenBy receive receiveRate)
    (hsend : Rate.WrittenBy send sendRate) :
    EditedBy other (.setPod pod receive send) c (c.setPod { pod with receiveRate, sendRate }) := by
  rw [Config.setPod]
  rcases insertPod_cases { pod with receiveRate, sendRate } c.pods with
    ⟨before, old, after, hpods, hold, hbefore, hinsert⟩ | ⟨hnone, hinsert⟩
  · rw [hinsert]
    exact .replaced hreceive hsend hpods hold hbefore
  · rw [hinsert]
    exact .added hreceive hsend hnone

theorem EditedBy.setPlan (c : Config) (d : Direction) {written : WrittenPlan} {plan : BandwidthPlan}
    (h : written.Means plan) : EditedBy other (.setPlan d written) c (c.setPlan d plan) := by
  refine .plan ?_ (fun d' hd => ?_) rfl rfl
  · rw [Config.setPlan, PerDirection.get_modify_self]
    exact h
  · rw [Config.setPlan, PerDirection.get_modify_of_ne _ hd]

theorem EditedBy.removePod {c left : Config} {id : String} {pod : Pod}
    (h : c.removePod id = (some pod, left)) : EditedBy other (.deletePod id) c left := by
  rw [Config.removePod, Prod.mk.injEq] at h
  obtain ⟨hfind, rfl⟩ := h
  obtain ⟨old, before, after, hbefore, hold, hpods, hleft⟩ :=
    List.exists_of_eraseP (List.mem_of_find?_eq_some hfind) (List.find?_some hfind)
  rw [hleft]
  exact .removed hpods (by simpa using hold) fun p hp => by simpa using hbefore p hp

end Config

namespace Command

variable {docs : Documents} {cmd : Command} {output : String} {next : Except Stop Errand}

/-- **A command that changes the configuration asks for the changed one to be saved.** -/
theorem exists_save (h : (cmd.decide docs).Answers (output, next)) (hedit : cmd.isEdit = true) :
    ∃ path c c' confirmation, next = .ok (.save path c' confirmation) ∧ docs.configPath = some path ∧
      Config.SaidBy docs.config c ∧ Config.EditedBy docs.other cmd c c' := by
  cases cmd with
  | importLegacy file write =>
    cases hedit
    obtain ⟨text, htext, h⟩ := h.of_bind
    obtain ⟨⟨path, c⟩, hconfig, h⟩ := h.of_note.of_bind
    obtain ⟨hpath, hsaid⟩ := hconfig.of_config
    cases h.of_pure
    exact ⟨path, c, _, _, rfl, hpath, hsaid, .plans htext.of_contents⟩
  | setPlan d written =>
    obtain ⟨plan, hplan, h⟩ := h.of_bind
    obtain ⟨⟨path, c⟩, hconfig, h⟩ := h.of_bind
    obtain ⟨hpath, hsaid⟩ := hconfig.of_config
    obtain ⟨filled, -, h⟩ := h.of_bind
    cases h.of_pure
    exact ⟨path, c, _, _, rfl, hpath, hsaid, .setPlan c d hplan.of_plan⟩
  | setPod pod receive send =>
    obtain ⟨⟨path, c⟩, hconfig, h⟩ := h.of_bind
    obtain ⟨hpath, hsaid⟩ := hconfig.of_config
    obtain ⟨receiveRate, hreceive, h⟩ := h.of_bind
    obtain ⟨sendRate, hsend, h⟩ := h.of_bind
    obtain ⟨s, -, h⟩ := h.of_bind
    cases h.of_pure
    exact ⟨path, c, _, _, rfl, hpath, hsaid, .setPod c pod hreceive.of_rate hsend.of_rate⟩
  | deletePod id =>
    obtain ⟨⟨path, c⟩, hconfig, h⟩ := h.of_bind
    obtain ⟨hpath, hsaid⟩ := hconfig.of_config
    obtain ⟨s, -, h⟩ := h.of_bind
    split at h
    · exact absurd h (Inquiry.not_answers_fail _ _)
    · rename_i pod left hremove
      obtain ⟨_, -, h⟩ := h.of_bind
      cases h.of_pure
      exact ⟨path, c, _, _, rfl, hpath, hsaid, .removePod hremove⟩
  | showConfig | checkConfig | listPods | simulate file | stress workers duration packetSize => cases hedit

/-- A command that does not change the configuration saves nothing. -/
theorem ne_save (h : (cmd.decide docs).Answers (output, next)) (hedit : cmd.isEdit = false) (path : String)
    (c : Config) (confirmation : String) : next ≠ .ok (.save path c confirmation) := by
  rintro rfl
  cases cmd with
  | setPlan d written | setPod pod receive send | deletePod id => cases hedit
  | importLegacy file write =>
    cases hedit
    obtain ⟨text, -, h⟩ := h.of_bind
    obtain ⟨_, -, h⟩ := h.of_note.of_bind
    cases h.of_pure
  | showConfig =>
    obtain ⟨_, -, h⟩ := h.of_bind
    obtain ⟨s, -, h⟩ := h.of_bind
    cases h.of_pure
  | checkConfig =>
    obtain ⟨_, -, h⟩ := h.of_bind
    obtain ⟨filled, -, h⟩ := h.of_bind
    cases h.of_pure
  | listPods =>
    obtain ⟨_, -, h⟩ := h.of_bind
    obtain ⟨s, -, h⟩ := h.of_bind
    cases h.of_pure
  | simulate file =>
    obtain ⟨text, -, h⟩ := h.of_bind
    split at h
    · exact Inquiry.not_answers_fail _ _ h
    · have h := h.of_note
      split at h
      · cases h.of_pure
      · exact Inquiry.not_answers_throw _ _ h
  | stress workers duration packetSize =>
    obtain ⟨_, -, h⟩ := h.of_bind
    obtain ⟨s, -, h⟩ := h.of_bind
    have hload := congrArg Prod.snd h.of_pure
    rw [loadFor] at hload
    split at hload
    · cases hload
    · split at hload <;> cases hload

/-- An errand that is left to be run is the answer of a decision. -/
theorem answers_of_respond {errand : Errand} (h : (cmd.respond docs).next = .ok errand) :
    ∃ output, (cmd.decide docs).Answers (output, .ok errand) := by
  rw [respond] at h
  split at h
  · rename_i output next notes hrun
    exact ⟨output, #[], (congrArg Prod.fst hrun).trans (by rw [← h])⟩
  · cases h

end Command

/-! ## Files

To save may fail when directories are made and when the file is written.  In either case the files are as
before, although there may be new directories.  That is why a failure is said to leave the files alone, and
only a command that does not want to save the whole tree. -/

namespace FileTree

theorem files_makeAlong (t : FileTree) (p : Place) (names : List String) :
    (t.makeAlong p names).2.files = t.files := by
  induction names generalizing t p with
  | nil => rfl
  | cons name names ih =>
    rw [makeAlong]
    split
    · rfl
    · split
      · exact ih _ _
      · split
        · rfl
        · exact ih _ _

/-- Making directories touches no file. -/
theorem files_makeDirectory (t : FileTree) (path : String) : (t.makeDirectory path).2.files = t.files := by
  rw [makeDirectory]
  split
  · rfl
  · split
    · rfl
    · exact files_makeAlong _ _ _

theorem files_prepare (t : FileTree) (path : String) :
    ((storage.prepare path).run t).2.files = t.files := by
  rw [Storage.prepare]
  split
  · exact files_makeDirectory t _
  · rfl

/-- A file is written where its path leads to, and its path leads there afterwards. -/
theorem exists_place_of_write {t t' : FileTree} {path text : String} (h : t.write path text = .ok t') :
    ∃ p, t'.locate path = .ok p ∧ t' = t.put p text := by
  rw [write] at h
  cases hplace : t.locate path with
  | error e =>
    rw [hplace] at h
    cases h
  | ok p =>
    rw [hplace] at h
    simp only [bind, Except.bind] at h
    split at h
    · cases h
    · split at h
      · cases h
      · cases h
        exact ⟨p, locate_put hplace p text, rfl⟩

/-- **To save is to write one file**, once there are directories for it. -/
theorem run_save (t : FileTree) (path : String) (c : Config) :
    ∃ prepared, prepared.files = t.files ∧
      ((∃ f, (storage.save path c).run t = (.error f, prepared)) ∨
        ∃ t', prepared.write path c.text = .ok t' ∧ (storage.save path c).run t = (.ok (), t')) := by
  have hfiles := t.files_prepare path
  rw [Storage.save, StateT.run_bind]
  generalize (storage.prepare path).run t = answer at hfiles
  obtain ⟨answer, prepared⟩ := answer
  refine ⟨prepared, hfiles, ?_⟩
  cases answer with
  | error f => exact .inl ⟨f, rfl⟩
  | ok _ =>
    cases hwrite : prepared.write path c.text with
    | error e =>
      refine .inl ⟨⟨[.writingConfig path], .file e⟩, ?_⟩
      change (((storage.write path c.text).run prepared).1.mapError _,
        ((storage.write path c.text).run prepared).2) = _
      rw [run_write_error hwrite]
      rfl
    | ok t' =>
      refine .inr ⟨t', rfl, ?_⟩
      change (((storage.write path c.text).run prepared).1.mapError _,
        ((storage.write path c.text).run prepared).2) = _
      rw [run_write_ok hwrite]
      rfl

/-- The contents of a file, if one is named. -/
def readIf (t : FileTree) : Option String → Except FileError String
  | some path => t.read path
  | none => .error .notFound

/-- The files that a command goes by. -/
def documents (usual : Option String) (t : FileTree) (i : Invocation) : Documents :=
  ⟨i.config.or usual, t.readIf (i.config.or usual), t.readIf i.command.otherFile?⟩

theorem config_documents {usual : Option String} {i : Invocation} {path : String}
    (h : i.config.or usual = some path) (t : FileTree) : (t.documents usual i).config = t.read path := by
  rw [documents, h]
  rfl

/-- To carry a command out is to read the files that it goes by, to decide it, and to run the errand. -/
theorem perform_eq (usual : Option String) (t : FileTree) (i : Invocation) :
    t.perform usual i = (storage.run (i.command.respond (t.documents usual i))).run t := by
  have hread : ∀ path, (storage.readIf path).run t = (t.readIf path, t) := fun path => by
    cases path <;> rfl
  rw [perform, Invocation.perform, StateT.run_bind, hread]
  change ((storage.readIf _ >>= _).run t) = _
  rw [StateT.run_bind, hread]
  rfl

/-- A response that does not ask for anything to be saved leaves the tree as it is. -/
theorem run_of_ne_save {r : Response} (h : ∀ path c confirmation, r.next ≠ .ok (.save path c confirmation))
    (t : FileTree) : ((storage.run r).run t).2 = t := by
  obtain ⟨output, notes, next⟩ := r
  cases next with
  | error stop => rfl
  | ok errand =>
    cases errand with
    | nothing | load l => rfl
    | save path c confirmation => exact absurd rfl (h path c confirmation)

/-- A response that asks for a configuration to be saved fails and leaves the files as they are, or it writes
that configuration. -/
theorem run_of_save {r : Response} {path : String} {c : Config} {confirmation : String}
    (h : r.next = .ok (.save path c confirmation)) (t : FileTree) :
    ((∃ stop, ((storage.run r).run t).1.result = .error stop) ∧
        ((storage.run r).run t).2.files = t.files) ∨
      ((storage.run r).run t).1.result = .ok none ∧
        ∃ prepared, prepared.files = t.files ∧
          FileTree.write prepared path c.text = .ok ((storage.run r).run t).2 := by
  obtain ⟨output, notes, next⟩ := r
  subst h
  obtain ⟨prepared, hfiles, ⟨f, hsave⟩ | ⟨t', hwrite, hsave⟩⟩ := t.run_save path c
  · rw [Storage.run, StateT.run_bind, hsave]
    exact .inl ⟨⟨.failed f, rfl⟩, hfiles⟩
  · rw [Storage.run, StateT.run_bind, hsave]
    exact .inr ⟨rfl, prepared, hfiles, hwrite⟩

/-- What has not failed has come to an errand. -/
theorem exists_errand {r : Response} {t : FileTree} {load : Option Load}
    (h : ((storage.run r).run t).1.result = .ok load) : ∃ errand, r.next = .ok errand := by
  obtain ⟨output, notes, next⟩ := r
  cases next with
  | error stop => cases h
  | ok errand => exact ⟨errand, rfl⟩

/-- **A change that has succeeded was written.**  It was decided from what the configuration file said, and the
changed configuration is in the file. -/
theorem exists_written {usual : Option String} {t : FileTree} {i : Invocation} {load : Option Load}
    (hedit : i.command.isEdit = true) (hok : (t.perform usual i).1.result = .ok load) :
    ∃ path c c' output confirmation prepared, i.config.or usual = some path ∧
      Config.SaidBy (t.read path) c ∧ Config.EditedBy (t.readIf i.command.otherFile?) i.command c c' ∧
      (i.command.decide (t.documents usual i)).Answers (output, .ok (.save path c' confirmation)) ∧
      prepared.files = t.files ∧ FileTree.write prepared path c'.text = .ok (t.perform usual i).2 := by
  rw [perform_eq] at hok ⊢
  obtain ⟨errand, hnext⟩ := exists_errand hok
  obtain ⟨output, hanswers⟩ := Command.answers_of_respond hnext
  obtain ⟨path, c, c', confirmation, hsave, hpath, hsaid, hedited⟩ := Command.exists_save hanswers hedit
  cases hsave
  rcases run_of_save hnext t with ⟨⟨stop, hstop⟩, -⟩ | ⟨-, prepared, hfiles, hwrite⟩
  · rw [hstop] at hok
    cases hok
  · rw [config_documents hpath] at hsaid
    exact ⟨path, c, c', output, confirmation, prepared, hpath, hsaid, hedited, hanswers, hfiles, hwrite⟩

/-- Files are only written by a change that succeeds. -/
theorem files_perform {usual : Option String} {t : FileTree} {i : Invocation} {stop : Stop}
    (hfail : (t.perform usual i).1.result = .error stop) : (t.perform usual i).2.files = t.files := by
  rw [perform_eq] at hfail ⊢
  by_cases hsave : ∃ path c confirmation,
      (i.command.respond (t.documents usual i)).next = .ok (.save path c confirmation)
  · obtain ⟨path, c, confirmation, hnext⟩ := hsave
    rcases run_of_save hnext t with ⟨-, hfiles⟩ | ⟨hresult, -⟩
    · exact hfiles
    · rw [hresult] at hfail
      cases hfail
  · rw [run_of_ne_save fun path c confirmation h => hsave ⟨path, c, confirmation, h⟩]

/-- A command that does not change the configuration leaves the tree as it is. -/
theorem perform_of_not_isEdit {usual : Option String} {t : FileTree} {i : Invocation}
    (hedit : i.command.isEdit = false) : (t.perform usual i).2 = t := by
  rw [perform_eq]
  refine run_of_ne_save (fun path c confirmation hnext => ?_) t
  obtain ⟨output, hanswers⟩ := Command.answers_of_respond hnext
  exact Command.ne_save hanswers hedit path c confirmation rfl

/-! ## The whole -/

/-- **Edits touch what they name, and failures touch nothing.**  A command that fails leaves all files as they
were, and one that does not change the configuration leaves the whole tree.  When a command that changes the
configuration has succeeded, the configuration file says what it said before, or what is standard if there was
none, with the one change that the command names; and no other file is different. -/
theorem edits_touch_what_they_name (usual : Option String) (t : FileTree) (i : Invocation) :
    let after := t.perform usual i
    (∀ stop, after.1.result = .error stop → after.2.files = t.files) ∧
      (i.command.isEdit = false → after.2 = t) ∧
      ∀ load, after.1.result = .ok load → i.command.isEdit = true →
        ∃ path place c c', i.config.or usual = some path ∧ Config.SaidBy (t.read path) c ∧
          Config.EditedBy (t.readIf i.command.otherFile?) i.command c c' ∧
          after.2.read path = .ok c'.text ∧ Config.ofText c'.text = .ok c' ∧
          after.2.locate path = .ok place ∧ ∀ p, p ≠ place → after.2.file? p = t.file? p := by
  refine ⟨fun stop hfail => files_perform hfail, perform_of_not_isEdit, fun load hok hedit => ?_⟩
  obtain ⟨path, c, c', _, _, prepared, hpath, hsaid, hedited, -, hfiles, hwrite⟩ := exists_written hedit hok
  obtain ⟨place, hplace, hput⟩ := exists_place_of_write hwrite
  refine ⟨path, place, c, c', hpath, hsaid, hedited, read_of_write hwrite,
    Json.Reader.whole_text c'.reads_json, hplace, fun p hp => ?_⟩
  rw [hput, file?_put_of_ne _ hp, file?, hfiles, file?]

end FileTree

/-! ## Cases

A file of the older format is imported where there has been no configuration. -/

namespace FirstImport

def tree : FileTree := ⟨[], [(["plans"], "hw_tx_bps_max 10")]⟩

def invocation : Invocation := ⟨some "config.json", .importLegacy "plans" true⟩

end FirstImport

section

open FirstImport

/-- What was imported is read back, and the file that it came from is still there. -/
theorem FileTree.edits_touch_what_they_name_at_first_import :
    let after := tree.perform none invocation
    after.1.result = .ok none ∧
      ∃ c', Config.EditedBy (.ok "hw_tx_bps_max 10") invocation.command .standard c' ∧
        after.2.read "config.json" = .ok c'.text ∧ after.2.file? ["plans"] = some "hw_tx_bps_max 10" := by
  intro after
  have hresult : after.1.result = .ok none := rfl
  obtain ⟨-, -, hedit⟩ := edits_touch_what_they_name none tree invocation
  obtain ⟨path, place, c, c', hpath, hsaid, hedited, hread, -, hplace, hother⟩ := hedit none hresult rfl
  cases hpath
  have habsent : tree.read "config.json" = .error .notFound := rfl
  have hwhere : after.2.locate "config.json" = .ok ["config.json"] := rfl
  rw [habsent] at hsaid
  cases hsaid
  cases hwhere.symm.trans hplace
  exact ⟨hresult, c', hedited, hread, hother ["plans"] (by decide)⟩

end

end Shaping
