import Shaping.Config.Format
import Shaping.FileTree
import Shaping.Proofs.Address.Text
import Shaping.Proofs.Json.Readers

/-!
# What is saved is read back

A configuration is written as one JSON text, and that text is read as the same configuration
(`Config.saved_is_read_back`), whatever its rates, names and addresses are.

Each part of a configuration is written as an object and read as a record, and is read back by itself
(`BandwidthPlan.reads_json`, `Pod.reads_json`, `ShapingOptions.reads_json`).  The fields that are read are
the ones that were written, in the same order and none of them twice, and each is read into the place that
it was taken from: beginning with the blank record, the last field makes it the record that was written.

A file that is saved has the text of the configuration in it.  Writing it makes no directories, so its path
leads to the same place when it is read (`FileTree.read_of_write`).

There is no induction over configurations here.  Whoever adds a field to a record has to add a `.of` with
the lemma for its type, at the place at which the field is written; with another order the terms do not fit
together, and with a name that is there already `decide` fails.
-/

set_option autoImplicit false

namespace Shaping

open Json Json.Reader

/-! ## Parts of a configuration -/

theorem Discipline.reads_name (d : Discipline) : reader.Reads (.string d.name) d := by
  cases d <;> exact reads_variant rfl

theorem UnresolvedPolicy.reads_name (p : UnresolvedPolicy) : reader.Reads (.string p.name) p := by
  cases p <;> exact reads_variant rfl

theorem BandwidthPlan.reads_json (p : BandwidthPlan) : reader.Reads p.json p := by
  refine reads_record ?_ (by decide)
  exact .of (reads_word _) (.of (reads_word _) (.of (reads_word _) (.of (reads_word _)
    (.of (reads_word _) (.of (reads_word _) (.of (reads_word _) (.of (reads_word _) (.nil _))))))))

theorem BandwidthPlan.reads_pairJson (s : PerDirection BandwidthPlan) : pairReader.Reads (pairJson s) s :=
  reads_record (.of (reads_json _) (.of (reads_json _) (.nil _))) (by decide)

theorem Pod.reads_json (p : Pod) : reader.Reads p.json p := by
  refine reads_record ?_ (by decide)
  exact .of (reads_string p.id) (.of (reads_string p.uid)
    (.of (reads_optional (fun a => reads_parsed (Address.v4OfText?_v4Text a)) (fun _ => Value.noConfusion) p.v4)
    (.of (reads_optional (fun a => reads_parsed (Address.v6OfText?_v6Text a)) (fun _ => Value.noConfusion) p.v6)
    (.of (reads_flag p.hostNetwork)
    (.of (reads_optional reads_shortWord (fun _ => Value.noConfusion) p.priority)
    (.of (reads_word p.entity) (.of (reads_word p.receiveRate) (.of (reads_word p.sendRate) (.nil _)))))))))

theorem StageDisciplines.reads_json (s : StageDisciplines) : reader.Reads s.json s :=
  reads_record (.of s.entity.reads_name (.of s.global.reads_name (.nil _))) (by decide)

theorem ShapingOptions.reads_json (o : ShapingOptions) : reader.Reads o.json o :=
  reads_record (.of o.stages.ingress.reads_json (.of o.stages.egress.reads_json
    (.of o.unresolved.reads_name (.of (reads_size o.maxEntries) (.nil _))))) (by decide)

/-- **A configuration is read back.** -/
theorem Config.reads_json (c : Config) : reader.Reads c.json c :=
  reads_record (.of (BandwidthPlan.reads_pairJson c.plans) (.of (reads_list Pod.reads_json c.pods)
    (.of c.options.reads_json (.nil _)))) (by decide)

/-! ## Files

A text is read back only if its path leads to the same place afterwards.  It need not in general, since a
path may lead through a directory that is not there yet, so it is used that writing adds a file and no
directory. -/

namespace FileTree

/-- Writing a file makes no directories. -/
theorem isDirectory_put (t : FileTree) (p q : Place) (text : String) :
    (t.put p text).isDirectory q = t.isDirectory q := rfl

/-- Names that lead to a place still do so after a file was written. -/
theorem follow_put {t : FileTree} {p q : Place} {names : List String} (h : t.follow p names = .ok q)
    (r : Place) (text : String) : (t.put r text).follow p names = .ok q := by
  induction names generalizing p with
  | nil => exact h
  | cons name names ih =>
    rw [follow] at h ⊢
    cases hstep : t.step p name with
    | error e =>
      rw [hstep] at h
      cases h
    | ok p' =>
      have hstep' : (t.put r text).step p name = .ok p' := by
        rw [step] at hstep ⊢
        split at hstep
        · rename_i hdirectory
          rw [isDirectory_put, if_pos hdirectory]
          exact hstep
        · split at hstep <;> cases hstep
      rw [hstep] at h
      rw [hstep']
      exact ih h

/-- A path that leads to a place still does so after a file was written. -/
theorem locate_put {t : FileTree} {path : String} {p : Place} (h : t.locate path = .ok p) (r : Place)
    (text : String) : (t.put r text).locate path = .ok p := by
  rw [locate] at h ⊢
  cases hnames : names path with
  | error e =>
    rw [hnames] at h
    cases h
  | ok ns =>
    rw [hnames] at h
    exact follow_put h r text

/-- **A file that was written is read back.** -/
theorem read_of_write {t t' : FileTree} {path text : String} (h : t.write path text = .ok t') :
    t'.read path = .ok text := by
  rw [write] at h
  cases hplace : t.locate path with
  | error e =>
    rw [hplace] at h
    cases h
  | ok p =>
    have hlocate : (t.put p text).locate path = .ok p := locate_put hplace p text
    rw [hplace] at h
    simp only [bind, Except.bind] at h
    split at h
    · cases h
    · rename_i hdirectory
      split at h
      · cases h
      · rename_i hslash
        cases h
        rw [read, hlocate]
        simp only [bind, Except.bind, isDirectory_put, if_neg hdirectory, file?_put_self, if_neg hslash]
        rfl

theorem run_write_ok {t t' : FileTree} {path text : String} (h : t.write path text = .ok t') :
    (storage.write path text).run t = (.ok (), t') := by
  simp only [storage, modifyGet, MonadStateOf.modifyGet, StateT.run, StateT.modifyGet, h]
  rfl

theorem run_write_error {t : FileTree} {path text : String} {e : FileError}
    (h : t.write path text = .error e) : (storage.write path text).run t = (.error e, t) := by
  simp only [storage, modifyGet, MonadStateOf.modifyGet, StateT.run, StateT.modifyGet, h]
  rfl

/-- A file is saved by writing its text. -/
theorem write_of_save {path : String} {c : Config} {t t' : FileTree}
    (h : (storage.save path c).run t = (.ok (), t')) :
    ∃ prepared, FileTree.write prepared path c.text = .ok t' := by
  rw [Storage.save, StateT.run_bind] at h
  generalize (storage.prepare path).run t = answer at h
  obtain ⟨answer, prepared⟩ := answer
  cases answer with
  | error f => cases h
  | ok _ =>
    change (((storage.write path c.text).run prepared).1.mapError _,
      ((storage.write path c.text).run prepared).2) = _ at h
    cases hwrite : FileTree.write prepared path c.text with
    | error e =>
      rw [run_write_error hwrite] at h
      cases h
    | ok written =>
      rw [run_write_ok hwrite] at h
      cases h
      exact ⟨prepared, hwrite⟩

end FileTree

/-- **What is saved is read back.**  The text of a configuration says that configuration again; and a file that it
was saved in is read as such a text. -/
theorem Config.saved_is_read_back (c : Config) :
    ofText c.text = .ok c ∧
      ∀ (path : String) (t t' : FileTree), (FileTree.storage.save path c).run t = (.ok (), t') →
        ∃ text, t'.read path = .ok text ∧ ofText text = .ok c := by
  have htext : ofText c.text = .ok c := whole_text c.reads_json
  refine ⟨htext, fun path t t' hsave => ⟨c.text, ?_, htext⟩⟩
  obtain ⟨prepared, hwrite⟩ := FileTree.write_of_save hsave
  exact FileTree.read_of_write hwrite

/-! ## Cases -/

namespace AwkwardPod

/-- A pod with quotes, a new line and a control character in its name, and addresses of both families. -/
def pod : Pod :=
  { Pod.blank with id := "\"a\nb\"\x01", v4 := some 0x0A000001#32, v6 := some 0xFFFF0A000001#128 }

def config : Config := ⟨.const .unset, [pod], .standard⟩

/-- The files after it was saved. -/
def tree : FileTree := ⟨[["node"]], [(["node", "config.json"], config.text)]⟩

theorem saved : (FileTree.storage.save "node/config.json" config).run .empty = (.ok (), tree) := rfl

end AwkwardPod

/-- The pod is saved where there was nothing before, and read back. -/
theorem Config.saved_is_read_back_of_awkward : ∃ text,
    AwkwardPod.tree.read "node/config.json" = .ok text ∧ ofText text = .ok AwkwardPod.config :=
  (saved_is_read_back AwkwardPod.config).2 "node/config.json" .empty AwkwardPod.tree AwkwardPod.saved

end Shaping
