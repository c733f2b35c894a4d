import Shaping.Proofs.Command.Edits
import Shaping.Proofs.Control.Room
import Shaping.Proofs.Control.Teardown

/-!
# Configurations that the shaper takes

A configuration that is saved should be one that the shaper takes.  The commands that change the
configuration see to this in different ways.  To set a plan, the plans and pods are checked
(`Config.check`), which is enough, because plans need no room.  To set a pod, the new configuration is
loaded.  But plans that are imported are saved unseen; and before a pod is removed it is the *old*
configuration that is loaded, while nobody looks whether the tables have room for what is left.

So a configuration that could be loaded can be loaded after a change, if what the command `Presumes` holds
of it, and otherwise it cannot (`Config.loads_iff_presumes`).  By induction, a file stays one that can be
loaded as long as every command that changes it presumes what is so (`FileTree.EditedInTurn.loadable`), and
as long as it can be loaded its plans are shown and its pods listed (`FileTree.result_eq_ok_iff`).

Both presumptions may fail (`FileTree.edits_leave_what_is_refused`).  The pod that goes away may have been
one that takes a limit away, for an entity that another pod limits; then there may be no room for what comes
after it.  This only happens when the tables are too small for all that the configuration names
(`Config.EditedBy.loads_of_fits`).

In one direction the theory of edits has what is needed, since it says which configuration is in the file
after a command that has succeeded.  For the counterexamples the other direction is needed too, that a
command does succeed.  An inquiry that comes to the same answer whatever notes there are (`Inquiry.Always`)
can be put together from its parts in the same way as it is taken apart.
-/

set_option autoImplicit false

namespace Shaping

/-! ## Answers that are certain -/

namespace Inquiry

variable {α β : Type}

/-- The inquiry comes to an answer, whatever notes were left before. -/
def Always (q : Inquiry α) (a : α) : Prop := ∀ notes, (q.run.run notes).1 = .ok a

theorem always_pure (a : α) : (pure a : Inquiry α).Always a := fun _ => rfl

theorem Always.bind {q : Inquiry α} {f : α → Inquiry β} {a : α} {b : β} (h : q.Always a)
    (hf : (f a).Always b) : (q >>= f).Always b := by
  intro notes
  have hq := h notes
  rw [run_bind]
  generalize q.run.run notes = result at hq
  obtain ⟨result, notes'⟩ := result
  dsimp only at hq
  subst hq
  exact hf notes'

theorem always_note (notes : Array Note) : (note notes).Always () := fun _ => rfl

variable {docs : Documents} {path : String} {c : Config} {s : Shaper}

/-- The configuration that the file says is found. -/
theorem always_config (hpath : docs.configPath = some path) (h : Config.SaidBy docs.config c) :
    (config docs).Always (path, c) := by
  obtain ⟨configPath, file, other⟩ := docs
  dsimp only at hpath h
  subst hpath
  rw [config]
  cases h with
  | text hread =>
    refine (always_pure path).bind ?_
    simp only [hread]
    exact (always_note _).bind (always_pure _)
  | absent habsent =>
    refine (always_pure path).bind ?_
    simp only [habsent, if_true]
    exact (always_note _).bind (always_pure _)

theorem always_shaper (h : c.load.1 = .ok s) : (shaper c).Always s := by
  rw [shaper]
  generalize c.load = answer at h
  obtain ⟨result, notes⟩ := answer
  dsimp only at h
  subst h
  exact (always_note notes).bind (always_pure s)

/-- A pod can always be taken out of a shaper that was loaded. -/
theorem always_teardown (h : c.load.1 = .ok s) (pod : Pod) (left : Config) :
    (teardown s pod left).Always () := by
  obtain ⟨capacity, m, hm, hsound⟩ := (Config.reachable_of_load h).mirrors
  obtain ⟨torn, notes, -, hrun, -⟩ := Control.run_tearDown hm hsound pod left
  rw [teardown, hrun]
  exact (always_note _).bind (always_pure ())

end Inquiry

namespace Command

variable {docs : Documents} {path : String} {c : Config} {s : Shaper}

theorem next_of_always {cmd : Command} {output : String} {next : Except Stop Errand}
    (h : (cmd.decide docs).Always (output, next)) : (cmd.respond docs).next = next := by
  have hrun := h #[]
  rw [respond]
  generalize (cmd.decide docs).run.run #[] = result at hrun
  obtain ⟨result, notes⟩ := result
  dsimp only at hrun
  subst hrun
  rfl

/-- **A pod is removed from any configuration that can be loaded.**  What is left is not looked at. -/
theorem next_deletePod (hpath : docs.configPath = some path) (hsaid : Config.SaidBy docs.config c)
    (hload : c.load.1 = .ok s) {id : String} {pod : Pod} {left : Config}
    (hremove : c.removePod id = (some pod, left)) :
    ∃ confirmation, ((deletePod id).respond docs).next = .ok (.save path left confirmation) := by
  have hdecide : ((deletePod id).decide docs).Always ("", .ok (.save path left s!"Pod {id} removed\n")) := by
    refine (Inquiry.always_config hpath hsaid).bind ((Inquiry.always_shaper hload).bind ?_)
    rw [hremove]
    exact (Inquiry.always_teardown hload pod left).bind (Inquiry.always_pure _)
  exact ⟨_, next_of_always hdecide⟩

end Command

/-! ## What is looked at, and what is not

What a command has looked at and what it takes for granted are two predicates of the configuration that it
saves.  For each command at least one of the two is trivial.  The
theorem says that the second is just what has to be added to the first. -/

namespace Command

/-- What the command has found out about the configuration that it asks to be saved. -/
def Looks (c : Config) : Command → Prop
  | .setPlan .. => c.check.1 = .ok ()
  | .setPod .. => c.Loads
  | _ => True

/-- What the command takes for granted of the configuration that it asks to be saved. -/
def Presumes (c : Config) : Command → Prop
  | .importLegacy .. => ∀ d, (c.plans.get d).withDefaults.check = .ok ()
  | .deletePod _ => c.HasRoom
  | _ => True

theorem looks_of_answers {docs : Documents} {cmd : Command} {output path confirmation : String} {c : Config}
    (h : (cmd.decide docs).Answers (output, .ok (.save path c confirmation))) : cmd.Looks c := by
  cases cmd with
  | setPlan d written =>
    obtain ⟨plan, -, h⟩ := h.of_bind
    obtain ⟨⟨path', c₀⟩, -, h⟩ := h.of_bind
    obtain ⟨filled, hchecked, h⟩ := h.of_bind
    cases h.of_pure
    exact hchecked.of_checked
  | setPod pod receive send =>
    obtain ⟨⟨path', c₀⟩, -, h⟩ := h.of_bind
    obtain ⟨receiveRate, -, h⟩ := h.of_bind
    obtain ⟨sendRate, -, h⟩ := h.of_bind
    obtain ⟨s, hshaper, h⟩ := h.of_bind
    cases h.of_pure
    exact ⟨s, hshaper.of_within.of_shaper⟩
  | showConfig | checkConfig | importLegacy file write | listPods | deletePod id | simulate file
  | stress workers duration packetSize => exact trivial

end Command

namespace Config

variable {c c' : Config}

/-- A file says one configuration. -/
theorem SaidBy.unique {file : Except FileError String} (h : SaidBy file c) (h' : SaidBy file c') : c = c' := by
  cases h with
  | text hread =>
    cases h' with
    | text hread' => exact Except.ok.inj (hread.symm.trans hread')
  | absent _ =>
    cases h' with
    | absent _ => rfl

/-- Plans need no room. -/
theorem HasRoom.congr (h : c.HasRoom) (hpods : c'.pods = c.pods) (hoptions : c'.options = c.options) :
    c'.HasRoom := by
  rw [HasRoom, writes] at h ⊢
  rw [hpods, hoptions]
  exact h

theorem Acceptable.of_sublist (h : c.Acceptable) (hplans : c'.plans = c.plans)
    (hpods : c'.pods.Sublist c.pods) : c'.Acceptable :=
  ⟨hplans ▸ h.plans, fun p hp => h.pods p (hpods.subset hp)⟩

/-- What is left when a pod is removed. -/
theorem EditedBy.of_deletePod {other : Except FileError String} {id : String}
    (h : EditedBy other (.deletePod id) c c') :
    c'.plans = c.plans ∧ c'.options = c.options ∧ c'.pods.Sublist c.pods := by
  cases h with
  | @removed id old c before after hpods _ _ =>
    exact ⟨rfl, rfl, hpods ▸ (List.sublist_cons_self old after).append_left before⟩

/-- **A changed configuration can be loaded if and only if what the command presumes is so.** -/
theorem loads_iff_presumes {other : Except FileError String} {cmd : Command} (h : c.Loads)
    (hedited : EditedBy other cmd c c') (hlooks : cmd.Looks c') : c'.Loads ↔ cmd.Presumes c' := by
  obtain ⟨hcapacity, hacceptable, hroom⟩ := c.loads_iff.mp h
  cases hedited with
  | plans _ =>
    rw [loads_iff]
    refine ⟨fun hloads => hloads.2.1.plans, fun hplans => ⟨hcapacity, ⟨hplans, hacceptable.pods⟩, ?_⟩⟩
    exact hroom.congr rfl rfl
  | plan _ _ hpods hoptions =>
    refine iff_of_true (c'.loads_iff.mpr ⟨hoptions ▸ hcapacity, ?_, hroom.congr hpods hoptions⟩) trivial
    exact (c'.check_eq_ok_iff.mp hlooks).1
  | replaced _ _ _ _ _ => exact iff_of_true hlooks trivial
  | added _ _ _ => exact iff_of_true hlooks trivial
  | removed hpods hid hbefore =>
    have hdeleted : EditedBy other _ _ _ := .removed hpods hid hbefore
    obtain ⟨hplans, hoptions, hleft⟩ := hdeleted.of_deletePod
    rw [loads_iff]
    exact ⟨fun hloads => hloads.2.2,
      fun hroom' => ⟨hoptions ▸ hcapacity, hacceptable.of_sublist hplans hleft, hroom'⟩⟩

/-- What fits does so without some of the pods. -/
theorem Fits.of_sublist {capacity : Nat} (h : c.Fits capacity) (hpods : c'.pods.Sublist c.pods) :
    c'.Fits capacity := by
  refine ⟨Nat.le_trans (Finset.card_le_card ?_) h.addresses,
    fun d => Nat.le_trans (Finset.card_le_card ?_) (h.entities d)⟩
  · intro key hkey
    obtain ⟨pod, hpod, hkey⟩ := List.mem_flatMap.mp (List.mem_toFinset.mp hkey)
    exact List.mem_toFinset.mpr (List.mem_flatMap.mpr ⟨pod, (hpods.filter _).subset hpod, hkey⟩)
  · intro e he
    exact List.mem_toFinset.mpr (((hpods.filter _).map _).subset (List.mem_toFinset.mp he))

/-- **No harm is done by removing a pod if there is room for all that the configuration names.** -/
theorem EditedBy.loads_of_fits {other : Except FileError String} {id : String}
    (hedited : EditedBy other (.deletePod id) c c') (h : c.Loads)
    (hfits : c.Fits (max c.options.maxEntries.toNat 1)) : c'.Loads := by
  refine (loads_iff_presumes h hedited trivial).mpr ?_
  obtain ⟨-, hacceptable, -⟩ := c.loads_iff.mp h
  obtain ⟨hplans, hoptions, hleft⟩ := hedited.of_deletePod
  refine hasRoom_of_fits (hacceptable.of_sublist hplans hleft) ?_
  rw [hoptions]
  exact hfits.of_sublist hleft

end Config

/-! ## Files

A file that does not exist counts as one that says the standard configuration, here as for the commands.  So
the first edit needs no case of its own. -/

namespace FileTree

variable {usual : Option String} {path : String} {t t' : FileTree} {i : Invocation} {load : Option Load}

/-- The file says a configuration that can be loaded, or it does not exist and the standard one can. -/
def Loadable (t : FileTree) (path : String) : Prop := ∃ c, Config.SaidBy (t.read path) c ∧ c.Loads

/-- **What a change comes to.**  If the file could be loaded, it can be loaded afterwards if and only if what the
command presumes is so. -/
theorem exists_presumes (hpath : i.config.or usual = some path) (hedit : i.command.isEdit = true)
    (hloadable : t.Loadable path) (hok : (t.perform usual i).1.result = .ok load) :
    ∃ c', Config.SaidBy ((t.perform usual i).2.read path) c' ∧ (c'.Loads ↔ i.command.Presumes c') := by
  obtain ⟨c, hsaid, hloads⟩ := hloadable
  obtain ⟨path', c₀, c', output, confirmation, prepared, hpath', hsaid', hedited, hanswers, -, hwrite⟩ :=
    exists_written hedit hok
  cases hpath.symm.trans hpath'
  cases hsaid.unique hsaid'
  refine ⟨c', ?_, Config.loads_iff_presumes hloads hedited (Command.looks_of_answers hanswers)⟩
  rw [read_of_write hwrite]
  exact .text (Json.Reader.whole_text c'.reads_json)

/-- **Plans are shown and pods are listed if and only if the configuration can be loaded.** -/
theorem result_eq_ok_iff (hpath : i.config.or usual = some path)
    (hcmd : i.command = .showConfig ∨ i.command = .listPods) :
    (t.perform usual i).1.result = .ok none ↔ t.Loadable path := by
  rw [perform_eq]
  have hfile := config_documents hpath t
  constructor
  · intro hok
    obtain ⟨errand, hnext⟩ := exists_errand hok
    obtain ⟨output, hanswers⟩ := Command.answers_of_respond hnext
    rcases hcmd with hcmd | hcmd
    all_goals
      rw [hcmd] at hanswers
      obtain ⟨⟨path', c⟩, hconfig, hanswers⟩ := hanswers.of_bind
      obtain ⟨s, hshaper, -⟩ := hanswers.of_bind
      exact ⟨c, hfile ▸ hconfig.of_config.2, s, hshaper.of_shaper⟩
  · rintro ⟨c, hsaid, s, hload⟩
    have hconfig := Inquiry.always_config hpath (hfile ▸ hsaid)
    have hnext : (i.command.respond (t.documents usual i)).next = .ok .nothing := by
      rcases hcmd with hcmd | hcmd
      all_goals
        rw [hcmd]
        exact Command.next_of_always (hconfig.bind ((Inquiry.always_shaper hload).bind (Inquiry.always_pure _)))
    generalize i.command.respond (t.documents usual i) = r at hnext
    obtain ⟨output, notes, next⟩ := r
    dsimp only at hnext
    subst hnext
    rfl

/-- What becomes of a tree by commands that change the configuration in a file, all of which succeed and presume
what is so. -/
inductive EditedInTurn (usual : Option String) (path : String) (t : FileTree) : FileTree → Prop
  | start : EditedInTurn usual path t t
  | edit {t' : FileTree} {i : Invocation} {load : Option Load} {c' : Config} : EditedInTurn usual path t t' →
      i.config.or usual = some path → i.command.isEdit = true → (t'.perform usual i).1.result = .ok load →
      Config.SaidBy ((t'.perform usual i).2.read path) c' → i.command.Presumes c' →
      EditedInTurn usual path t (t'.perform usual i).2

/-- **A file that can be loaded stays one**, as long as nothing is presumed that is not so. -/
theorem EditedInTurn.loadable (h : EditedInTurn usual path t t') (hloadable : t.Loadable path) :
    t'.Loadable path := by
  induction h with
  | start => exact hloadable
  | edit _ hpath hedit hok hsaid hpresumes ih =>
    obtain ⟨c, hsaid', hiff⟩ := exists_presumes hpath hedit ih hok
    cases hsaid.unique hsaid'
    exact ⟨_, hsaid, hiff.mpr hpresumes⟩

end FileTree

/-- The standard configuration can be loaded. -/
theorem Config.loads_standard : standard.Loads := by
  have hunset : BandwidthPlan.unset.withDefaults.check = .ok () := rfl
  refine standard.loads_iff.mpr ⟨by decide, ⟨fun d => by cases d <;> exact hunset, ?_⟩, ?_⟩
  · exact fun _ hpod => (List.not_mem_nil hpod).elim
  · exact roomFor_nil.mpr (Keys.fit_none _)

namespace FileTree

/-- A file that does not exist can be loaded. -/
theorem loadable_of_absent {t : FileTree} {path : String} {e : FileError} (h : t.read path = .error e)
    (habsent : e.isAbsence = true) : t.Loadable path :=
  ⟨.standard, h ▸ .absent habsent, Config.loads_standard⟩

/-! ## The whole -/

/-- **What edits leave.**  Say that the configuration file can be loaded, or does not exist.  After a command that
changes it and succeeds it says a configuration that can be loaded if and only if what the command presumes is so:
of plans that are imported, that they can be kept, and of what is left when a pod is removed, that the tables
have room for it; commands that set a plan or a pod presume nothing.  So as long as no more is presumed than is so,
plans are shown and pods are listed. -/
theorem edits_stay_loadable_iff (usual : Option String) (path : String) :
    (∀ (t : FileTree) e, t.read path = .error e → e.isAbsence = true → t.Loadable path) ∧
      (∀ (t : FileTree) (i : Invocation) load, t.Loadable path → i.config.or usual = some path →
        i.command.isEdit = true → (t.perform usual i).1.result = .ok load →
        ∃ c', Config.SaidBy ((t.perform usual i).2.read path) c' ∧ (c'.Loads ↔ i.command.Presumes c')) ∧
      ∀ (t t' : FileTree) (i : Invocation), t.Loadable path → EditedInTurn usual path t t' →
        i.config.or usual = some path → i.command = .showConfig ∨ i.command = .listPods →
        (t'.perform usual i).1.result = .ok none :=
  ⟨fun _ _ => loadable_of_absent, fun _ _ _ hloadable hpath hedit => exists_presumes hpath hedit hloadable,
    fun _ _ _ hloadable hedited hpath hcmd => (result_eq_ok_iff hpath hcmd).mpr (hedited.loadable hloadable)⟩

end FileTree

/-! ## Cases

Plans are imported that cannot be kept, where there has been no configuration; and of three pods the one in the
middle is removed, which took the limit of the first one away, so that there was room for the third. -/

namespace CarelessImport

def plans : String := "hw_tx_bps_max 10\noffline_l1_tx_bps_max 20"

def tree : FileTree := ⟨[], [(["plans"], plans)]⟩

def invocation : Invocation := ⟨some "config.json", .importLegacy "plans" true⟩

/-- What is saved. -/
def config : Config := { Config.standard with plans := Legacy.plans plans }

theorem not_loads : ¬ config.Loads := by
  intro hloads
  have hcheck := (config.loads_iff.mp hloads).2.1.plans .egress
  cases hcheck

end CarelessImport

namespace FreedPlace

def pod (id : String) (entity : EntityId) (receiveRate : UInt64) : Pod :=
  { Pod.blank with id, entity, receiveRate }

/-- There is room for one limit. -/
def config (pods : List Pod) : Config :=
  ⟨.const .unset, pods, { ShapingOptions.standard with maxEntries := 1 }⟩

def before : Config := config [pod "a" 1 5, pod "b" 1 0, pod "c" 2 5]

def after : Config := config [pod "a" 1 5, pod "c" 2 5]

def tree : FileTree := ⟨[], [(["config.json"], before.text)]⟩

def invocation : Invocation := ⟨some "config.json", .deletePod "b"⟩

theorem removed : before.removePod "b" = (some (pod "b" 1 0), after) := rfl

theorem exists_load : ∃ s, before.load.1 = .ok s := ⟨_, rfl⟩

theorem not_loads : ¬ after.Loads := by
  rintro ⟨s, hload⟩
  cases hload

end FreedPlace

/-- A file in which a configuration was written that cannot be loaded. -/
theorem FileTree.not_loadable {t : FileTree} {path : String} {c : Config} (h : t.read path = .ok c.text)
    (hloads : ¬ c.Loads) : ¬ t.Loadable path := by
  rintro ⟨c', hsaid, hloads'⟩
  rw [h] at hsaid
  cases hsaid.unique (.text (Json.Reader.whole_text c.reads_json))
  exact hloads hloads'

/-- **Edits leave what the shaper refuses.**  Both changes succeed where the configuration could be loaded before,
and it cannot be loaded afterwards. -/
theorem FileTree.edits_leave_what_is_refused :
    (CarelessImport.tree.Loadable "config.json" ∧
        (CarelessImport.tree.perform none CarelessImport.invocation).1.result = .ok none ∧
        ¬ (CarelessImport.tree.perform none CarelessImport.invocation).2.Loadable "config.json") ∧
      FreedPlace.tree.Loadable "config.json" ∧
        (FreedPlace.tree.perform none FreedPlace.invocation).1.result = .ok none ∧
        ¬ (FreedPlace.tree.perform none FreedPlace.invocation).2.Loadable "config.json" := by
  refine ⟨⟨loadable_of_absent (e := .notFound) rfl rfl, rfl, ?_⟩, ?_⟩
  · exact not_loadable (c := CarelessImport.config) rfl CarelessImport.not_loads
  · have hread : FreedPlace.tree.read "config.json" = .ok FreedPlace.before.text := rfl
    have hsaid : Config.SaidBy (FreedPlace.tree.read "config.json") FreedPlace.before :=
      hread ▸ .text (Json.Reader.whole_text FreedPlace.before.reads_json)
    obtain ⟨s, hload⟩ := FreedPlace.exists_load
    obtain ⟨confirmation, hnext⟩ : ∃ confirmation, (FreedPlace.invocation.command.respond
        (FreedPlace.tree.documents none FreedPlace.invocation)).next
          = .ok (.save "config.json" FreedPlace.after confirmation) :=
      Command.next_deletePod rfl hsaid hload FreedPlace.removed
    rw [perform_eq]
    generalize FreedPlace.invocation.command.respond _ = r at hnext
    obtain ⟨output, notes, next⟩ := r
    dsimp only at hnext
    subst hnext
    exact ⟨⟨_, hsaid, s, hload⟩, rfl, not_loadable (c := FreedPlace.after) rfl FreedPlace.not_loads⟩

/-- What is saved when plans are imported for the first time. -/
def FirstImport.config : Config := { Config.standard with plans := Legacy.plans "hw_tx_bps_max 10" }

/-- Plans are imported that can be kept, so the file stays one that can be loaded. -/
theorem FileTree.edits_stay_loadable_at_first_import :
    FirstImport.tree.Loadable "config.json" ∧
      (FirstImport.tree.perform none FirstImport.invocation).1.result = .ok none ∧
      (FirstImport.tree.perform none FirstImport.invocation).2.Loadable "config.json" := by
  have hresult : (FirstImport.tree.perform none FirstImport.invocation).1.result = .ok none := rfl
  obtain ⟨habsent, hedit, -⟩ := edits_stay_loadable_iff none "config.json"
  have hbefore := habsent FirstImport.tree .notFound rfl rfl
  obtain ⟨c', hsaid, hiff⟩ := hedit FirstImport.tree FirstImport.invocation none hbefore rfl rfl hresult
  have hread : (FirstImport.tree.perform none FirstImport.invocation).2.read "config.json"
      = .ok FirstImport.config.text := rfl
  have hplans : ∀ d, (FirstImport.config.plans.get d).withDefaults.check = .ok () := fun d => by
    cases d <;> decide
  have hsame : c' = FirstImport.config := by
    rw [hread] at hsaid
    exact hsaid.unique (.text (Json.Reader.whole_text FirstImport.config.reads_json))
  exact ⟨hbefore, hresult, c', hsaid, hiff.mpr (hsame ▸ hplans)⟩

end Shaping
