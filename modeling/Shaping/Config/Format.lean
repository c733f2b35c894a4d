import Shaping.Config
import Shaping.Json.Printer
import Shaping.Json.Reader

/-!
# The configuration file

A configuration is written as a JSON text and read from one.  For each part there is the way it is
written (`json`) and, beside it, the way it is read (`reader`); both name the same fields in the same
order.  Everything may be left out except the id and the entity of a pod and, where the disciplines of
a direction are given at all, either of the two.
-/

set_option autoImplicit false

namespace Shaping

open Json (Reader Value)
open Json.Reader (Field)

/-! ## Names -/

namespace Direction

/-- Read the name of a direction. -/
def reader : Reader Direction := Reader.variant (all.map fun d => (d.name, d))

end Direction

namespace Discipline

/-- Read the name of a discipline. -/
def reader : Reader Discipline := Reader.variant ([tokenBucket, pacer].map fun d => (d.name, d))

end Discipline

namespace UnresolvedPolicy

/-- Read the name of a policy. -/
def reader : Reader UnresolvedPolicy := Reader.variant ([globalOnly, exempt].map fun p => (p.name, p))

end UnresolvedPolicy

/-! ## Plans -/

namespace BandwidthPlan

/-- A field of a plan that holds the least of a tier. -/
private def leastField (name : String) (t : Tier) : Reader.Field BandwidthPlan :=
  .of name false Reader.word fun p w =>
    { p with tiers := p.tiers.modify t fun b => { b with least := w } }

/-- A field of a plan that holds the most of a tier. -/
private def mostField (name : String) (t : Tier) : Reader.Field BandwidthPlan :=
  .of name false Reader.word fun p w =>
    { p with tiers := p.tiers.modify t fun b => { b with most := w } }

/-- Read a plan. -/
def reader : Reader BandwidthPlan :=
  Reader.record "GlobalConfig" unset
    [ .of "hw_guaranteed_bps" false Reader.word fun p w => { p with guaranteed := w },
      .of "hw_burstable_bps" false Reader.word fun p w => { p with burstable := w },
      leastField "l0_min_bps" .l0, mostField "l0_max_bps" .l0,
      leastField "l1_min_bps" .l1, mostField "l1_max_bps" .l1,
      leastField "l2_min_bps" .l2, mostField "l2_max_bps" .l2 ]

/-- A plan as it is written. -/
def json (p : BandwidthPlan) : Value :=
  .object
    [ ("hw_guaranteed_bps", .natural p.guaranteed.toNat),
      ("hw_burstable_bps", .natural p.burstable.toNat),
      ("l0_min_bps", .natural p.tiers.l0.least.toNat),
      ("l0_max_bps", .natural p.tiers.l0.most.toNat),
      ("l1_min_bps", .natural p.tiers.l1.least.toNat),
      ("l1_max_bps", .natural p.tiers.l1.most.toNat),
      ("l2_min_bps", .natural p.tiers.l2.least.toNat),
      ("l2_max_bps", .natural p.tiers.l2.most.toNat) ]

/-- Read the plans of both directions. -/
def pairReader : Reader (PerDirection BandwidthPlan) :=
  Reader.record "GlobalSection" (.const unset)
    [ .of "ingress" false reader fun s p => { s with ingress := p },
      .of "egress" false reader fun s p => { s with egress := p } ]

/-- The plans of both directions as they are written. -/
def pairJson (s : PerDirection BandwidthPlan) : Value :=
  .object [("ingress", s.ingress.json), ("egress", s.egress.json)]

end BandwidthPlan

/-! ## Pods -/

namespace Pod

/-- Read a pod. -/
def reader : Reader Pod :=
  Reader.record "PodConfig" blank
    [ .of "pod_id" true Reader.string fun p s => { p with id := s },
      .of "pod_uid" false Reader.string fun p s => { p with uid := s },
      .of "ipv4" false (Reader.optional (Reader.parsed "IPv4 address" Address.v4OfText?)) fun p a =>
        { p with v4 := a },
      .of "ipv6" false (Reader.optional (Reader.parsed "IPv6 address" Address.v6OfText?)) fun p a =>
        { p with v6 := a },
      .of "host_network" false Reader.flag fun p b => { p with hostNetwork := b },
      .of "priority" false (Reader.optional Reader.shortWord) fun p w => { p with priority := w },
      .of "entity_id" true Reader.word fun p w => { p with entity := w },
      .of "rx_bps" false Reader.word fun p w => { p with receiveRate := w },
      .of "tx_bps" false Reader.word fun p w => { p with sendRate := w } ]

/-- A value that may be missing, as it is written. -/
private def maybe {α : Type} (write : α → Value) : Option α → Value
  | some a => write a
  | none => .null

/-- A pod as it is written. -/
def json (p : Pod) : Value :=
  .object
    [ ("pod_id", .string p.id),
      ("pod_uid", .string p.uid),
      ("ipv4", maybe (fun a => .string (Address.v4Text a)) p.v4),
      ("ipv6", maybe (fun a => .string (Address.v6Text a)) p.v6),
      ("host_network", .boolean p.hostNetwork),
      ("priority", maybe (fun w => .natural w.toNat) p.priority),
      ("entity_id", .natural p.entity.toNat),
      ("rx_bps", .natural p.receiveRate.toNat),
      ("tx_bps", .natural p.sendRate.toNat) ]

end Pod

/-! ## Options -/

namespace StageDisciplines

/-- Read the disciplines of a direction.  The blank they are read into does not show, since both have
to be given. -/
def reader : Reader StageDisciplines :=
  Reader.record "StagePrimitives" (preferred .ingress)
    [ .of "entity" true Discipline.reader fun s d => { s with entity := d },
      .of "global" true Discipline.reader fun s d => { s with global := d } ]

/-- The disciplines of a direction as they are written. -/
def json (s : StageDisciplines) : Value :=
  .object [("entity", .string s.entity.name), ("global", .string s.global.name)]

end StageDisciplines

namespace ShapingOptions

/-- Read how to shape. -/
def reader : Reader ShapingOptions :=
  Reader.record "ShapingOptions" standard
    [ .of "ingress" false StageDisciplines.reader fun o s =>
        { o with stages := { o.stages with ingress := s } },
      .of "egress" false StageDisciplines.reader fun o s =>
        { o with stages := { o.stages with egress := s } },
      .of "unresolved" false UnresolvedPolicy.reader fun o p => { o with unresolved := p },
      .of "max_entries" false Reader.size fun o w => { o with maxEntries := w } ]

/-- How to shape, as it is written. -/
def json (o : ShapingOptions) : Value :=
  .object
    [ ("ingress", o.stages.ingress.json),
      ("egress", o.stages.egress.json),
      ("unresolved", .string o.unresolved.name),
      ("max_entries", .natural o.maxEntries.toNat) ]

end ShapingOptions

/-! ## The whole file -/

namespace Config

/-- Read a configuration. -/
def reader : Reader Config :=
  Reader.record "Config" standard
    [ .of "global" false BandwidthPlan.pairReader fun c p => { c with plans := p },
      .of "pods" false (Reader.list Pod.reader) fun c p => { c with pods := p },
      .of "shaping" false ShapingOptions.reader fun c o => { c with options := o } ]

/-- A configuration as it is written. -/
def json (c : Config) : Value :=
  .object
    [ ("global", BandwidthPlan.pairJson c.plans),
      ("pods", .array (c.pods.map Pod.json)),
      ("shaping", c.options.json) ]

/-- The configuration that a text says. -/
def ofText (text : String) : Except Json.Refusal Config := Reader.whole reader text

/-- The text of a configuration. -/
def text (c : Config) : String := c.json.text

end Config

end Shaping
