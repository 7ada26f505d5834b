import Mathlib.Data.List.Sort
import Unwire.Dependency
import Unwire.Proofs.PlannedRemovals
import Unwire.Proofs.SeparatedLists
import Unwire.Setup

namespace Unwire

open Syntax

theorem mem_staleNames {wired : List String} {desired : List Dependency} {name : String} :
    name ∈ staleNames wired desired ↔ name ∈ wired ∧ desired.any (·.name == name) = false := by
  simp [staleNames, List.mem_eraseDups]

namespace Removal

variable {t : SyntaxTree} {setup inst arguments opening closing body d e n x : Nat} {elements : List Nat}
  {trailing : Bool} {stale : List String}

/-- An argument list of names only. Its brackets are tokens. -/
structure NamesAt (t : SyntaxTree) (arguments opening : NodeId) (elements : List NodeId) (trailing : Bool)
    (closing : NodeId) : Prop extends ListAt t arguments opening elements trailing closing where
  opening_leaf : t.children opening = []
  closing_leaf : t.children closing = []
  names : ∀ e ∈ elements, (t.node e).kind = .identifier

/-- An instantiation of a class in a setup function, and its first argument list. The body of a function is a block, so
it is no instantiation. -/
structure Wiring (t : SyntaxTree) (setup : NodeId) (className : String) (inst arguments : NodeId) : Prop where
  function : (t.node setup).kind = .functionDeclaration
  body : ∀ body, t.childByField? setup "body" = some body → (t.node body).kind ≠ .newExpression
  found : t.findInstantiation? setup className = some inst
  first : (t.descendants inst).find? (fun i => (t.node i).kind == .argumentList) = some arguments

namespace Wiring

variable {className : String} (hw : Wiring t setup className inst arguments) (h : t.Linked)
include hw

theorem kind : (t.node inst).kind = .newExpression := by
  have hfound := List.find?_some hw.found
  simp only [Bool.and_eq_true, beq_iff_eq] at hfound
  exact hfound.1

include h

theorem below_setup : t.Below setup inst := h.mem_descendants.mp (List.mem_of_find?_eq_some hw.found)

theorem below_inst : t.Below inst arguments := h.mem_descendants.mp (List.mem_of_find?_eq_some hw.first)

theorem arguments_outside (hd : IsStaleStatement t setup stale d) (hout : ¬t.Below d inst) :
    ¬t.Below d arguments := by
  intro hda
  have hds : d < t.nodes.size := lt_size_of_kind (by simp [hd.kind])
  have hins : inst < t.nodes.size := lt_size_of_kind (by simp [hw.kind])
  obtain ⟨body, hb, hdb, _⟩ := hd
  have hid : t.Below inst d := (h.below_or_below hds hins hda (hw.below_inst h)).resolve_left hout
  -- Below the instantiation the statement is not either: the body or the function itself would be the instantiation.
  rcases (h.below_child_iff (SyntaxTree.mem_significantChildren.mp hdb).1).mp hid with rfl | hib
  · exact hout .self
  rcases (h.below_child_iff (List.mem_of_find?_eq_some hb)).mp hib with rfl | his
  · exact hw.body _ hb hw.kind
  obtain rfl := Nat.le_antisymm (h.le_of_below (hw.below_setup h)) (h.le_of_below his)
  exact absurd hw.function (by simp [hw.kind])

end Wiring

theorem removedSpans_subset (elements : List NodeId) :
    removedSpans t (isRemoved t setup stale) elements ⊆ (plan t setup stale .listAware).map (·.span) := by
  rw [plan_spans]
  refine List.map_subset _ fun e he => ?_
  exact List.contains_iff_mem.mp (List.mem_filter.mp he).2

namespace NamesAt

variable (hl : NamesAt t arguments opening elements trailing closing) (h : t.Orderly) (hwf : t.Named)
include hl h hwf

theorem mem_elements (hb : t.Below arguments n) (hk : (t.node n).kind = .identifier) : n ∈ elements := by
  rcases SyntaxTree.below_iff_child.mp hb with rfl | ⟨x, hx, hxn⟩
  · have hlist := hl.kind
    simp [hk, Kind.isList] at hlist
  by_cases hxt : t.isTrivia x = true
  · obtain rfl := h.eq_of_below_trivia hxt hxn
    simp [SyntaxTree.isTrivia, hk, Kind.isTrivia] at hxt
  have hxs := SyntaxTree.mem_significantChildren.mpr ⟨hx, by simpa using hxt⟩
  rcases hl.cases_mem hxs with rfl | rfl | hxe | hxc
  · obtain rfl := SyntaxTree.eq_of_below_leaf hl.opening_leaf hxn
    have hopen := hl.nodes.opens
    simp [hk, isOpeningBracket] at hopen
  · obtain rfl := SyntaxTree.eq_of_below_leaf hl.closing_leaf hxn
    have hclose := hl.nodes.closes
    simp [hk, Kind.isClosingBracket] at hclose
  · rw [hwf.name_not_nested (hl.names x hxe) (h.mem_descendants.mpr hxn) hk]
    exact hxe
  · have hcomma : (t.node x).kind = .comma := by simpa [isComma] using hxc.comma
    obtain rfl := SyntaxTree.eq_of_below_leaf (hwf.comma_leaf hcomma) hxn
    simp [hk] at hcomma

theorem descendants_filter :
    (t.descendants arguments).filter (fun i => (t.node i).kind == .identifier) = elements := by
  refine ((h.descendants_lt arguments).filter _).eq_of_mem_iff (hl.elements_lt h) fun n => ?_
  rw [List.mem_filter, h.mem_descendants, beq_iff_eq]
  constructor
  · rintro ⟨hb, hk⟩
    exact hl.mem_elements h hwf hb hk
  · intro hn
    exact ⟨.child .self (hl.mem_children hn), hl.names n hn⟩

theorem wiredNames_eq
    (hfirst : (t.descendants inst).find? (fun i => (t.node i).kind == .argumentList) = some arguments) :
    t.wiredNames inst = elements.map t.textOf := by
  rw [SyntaxTree.wiredNames, hfirst]
  exact congrArg (List.map t.textOf) (hl.descendants_filter h hwf)

section

variable (hout : ∀ d, IsStaleStatement t setup stale d → ¬t.Below d arguments)
include hout

omit hwf in
theorem isRemoved_iff (hbelow : t.Below setup arguments) (he : e ∈ elements) :
    isRemoved t setup stale e = true ↔ t.textOf e ∈ stale := by
  have hk := hl.names e he
  have hec := hl.mem_children he
  rw [Removal.isRemoved_iff h.toLinked]
  constructor
  · rintro (hd | hu)
    · exact absurd hd.kind (by simp [hk])
    · exact hu.mem_stale
  · intro hs
    refine Or.inr ⟨hbelow.trans (.child .self hec), hk, hs, ?_, ?_⟩
    · have hlist := hl.kind
      cases hka : (t.node arguments).kind <;>
        simp_all [isDeclaredName, h.parent_of_mem hec, Kind.isList]
    · intro d hd hde
      rcases (h.below_child_iff hec).mp hde with rfl | hda
      · exact absurd hd.kind (by simp [hk])
      · exact hout d hd hda

omit hwf in
theorem filter_isRemoved (hbelow : t.Below setup arguments) {desired : List Dependency}
    (hstale : ∀ name, name ∈ stale ↔ name ∈ elements.map t.textOf ∧ desired.any (·.name == name) = false) :
    elements.filter (!isRemoved t setup stale ·) = elements.filter fun e => desired.any (·.name == t.textOf e) := by
  refine List.filter_congr fun e he => ?_
  have hrem := hl.isRemoved_iff h hout hbelow he
  rw [hstale, and_iff_right (List.mem_map_of_mem he)] at hrem
  cases hd : desired.any (·.name == t.textOf e) <;> simp_all

theorem mem_elements_of_below (hn : n ∈ removedNodes t setup stale) (hb : t.Below arguments n) : n ∈ elements := by
  rcases (mem_removedNodes h.toLinked).mp hn with hd | hu
  · obtain ⟨x, hnx, hx⟩ := hd.exists_name
    have hxe := hl.mem_elements h hwf (hb.trans hnx) hx
    rcases (h.below_child_iff (hl.mem_children hxe)).mp hnx with rfl | hna
    · exact hxe
    · exact absurd hna (hout n hd)
  · exact hl.mem_elements h hwf hb hu.name

theorem mem_elements_of_touches (hstale : stale ⊆ elements.map t.textOf) (hn : n ∈ removedNodes t setup stale)
    (hx : x ∈ t.significantChildren arguments)
    (htouch : (listAwareSpan t (isRemoved t setup stale) n).touches (t.node x) = true) : n ∈ elements := by
  obtain ⟨hxc, hxt⟩ := SyntaxTree.mem_significantChildren.mp hx
  have htarget := isTarget_of_mem h hwf hn
  have hnt := htarget.isItem.not_trivia
  have hchild : t.Below arguments x := .child .self hxc
  rcases cases_of_touches h hnt hxt htarget.lt_size (h.lt_size_of_mem hxc) (outsideCommas_of_named hwf n x) htouch with
    hb | hb | htakes
  · rcases (h.below_child_iff hxc).mp hb with rfl | hna
    · exact hl.mem_elements_of_below h hwf hout hn hchild
    rcases (mem_removedNodes h.toLinked).mp hn with hd | hu
    · exact absurd hna (hout n hd)
    · -- A stale name is among the arguments, so a name around the list would hold another name.
      obtain ⟨e, he, _⟩ := List.mem_map.mp (hstale hu.mem_stale)
      have hbelow := h.mem_descendants.mpr (hna.child (hl.mem_children he))
      have heq := hwf.name_not_nested hu.name hbelow (hl.names e he)
      exact heq ▸ he
  · exact hl.mem_elements_of_below h hwf hout hn (hchild.trans hb)
  · exact hl.mem_elements_of_below h hwf hout hn (.child .self (htakes.mem_children h.toLinked hnt hxc))

theorem untouched_plan (hstale : stale ⊆ elements.map t.textOf) :
    untouched t ((plan t setup stale .listAware).map (·.span)) (t.significantChildren arguments) =
      untouched t (removedSpans t (isRemoved t setup stale) elements) (t.significantChildren arguments) := by
  rw [plan_spans]
  refine List.filter_congr fun x hx => congrArg (!·) ?_
  rw [← hit, Bool.eq_iff_iff, hit_eq_true_iff]
  simp only [List.any_map, List.any_eq_true, Function.comp_apply]
  constructor
  · rintro ⟨n, hn, htouch⟩
    exact ⟨n, hl.mem_elements_of_touches h hwf hout hstale hn hx htouch, List.contains_iff_mem.mpr hn, htouch⟩
  · rintro ⟨e, _, hrem, htouch⟩
    exact ⟨e, List.contains_iff_mem.mp hrem, htouch⟩

end

end NamesAt

/-- An update leaves of the arguments of the constructor those that are desired, in their order, with one comma between
neighbours, and a comma after the last one exactly where there was one before. All other arguments and commas go away as
a whole. -/
theorem update_keeps_desired_arguments (text className : String) (p : Parse.ParseTree)
    (hwf : (SyntaxTree.ofParse text p).Named) (setup inst arguments opening closing : NodeId) (elements : List NodeId)
    (trailing : Bool) (desired : List Dependency) (hw : Wiring (.ofParse text p) setup className inst arguments)
    (hl : NamesAt (.ofParse text p) arguments opening elements trailing closing)
    (hout : ∀ d, IsStaleStatement (.ofParse text p) setup
      (staleNames ((SyntaxTree.ofParse text p).wiredNames inst) desired) d → ¬(SyntaxTree.ofParse text p).Below d inst) :
    let t := SyntaxTree.ofParse text p
    let wired := t.wiredNames inst
    let spans := (plan t setup (staleNames wired desired) .listAware).map (·.span)
    let kept := elements.filter fun e => desired.any (·.name == t.textOf e)
    let left := untouched t spans (t.significantChildren arguments)
    kept.map t.textOf = wired.filter (fun name => desired.any (·.name == name)) ∧
      IsList t opening kept (trailing && !kept.isEmpty) closing left ∧
      ∀ c ∈ t.significantChildren arguments, c ∉ left → ∃ s ∈ spans, s.covers (t.node c) = true := by
  intro t wired spans kept left
  have h : t.Orderly := hwf.toNested.orderly
  have hwired : wired = elements.map t.textOf := hl.wiredNames_eq h hwf hw.first
  have hstale : ∀ name, name ∈ staleNames wired desired ↔
      name ∈ elements.map t.textOf ∧ desired.any (·.name == name) = false := by
    intro name
    rw [mem_staleNames, hwired]
  have harg : ∀ d, IsStaleStatement t setup (staleNames wired desired) d → ¬t.Below d arguments := fun d hd =>
    hw.arguments_outside h.toLinked hd (hout d hd)
  have hkept : elements.filter (!isRemoved t setup (staleNames wired desired) ·) = kept :=
    hl.filter_isRemoved h harg ((hw.below_setup h.toLinked).trans (hw.below_inst h.toLinked)) hstale
  have hleft : left = untouched t (removedSpans t (isRemoved t setup (staleNames wired desired)) elements) _ :=
    hl.untouched_plan h hwf harg fun name hname => ((hstale name).mp hname).1
  refine ⟨?_, ?_, ?_⟩
  · rw [hwired, List.filter_map]
    rfl
  · rw [hleft, ← hkept]
    exact hl.untouched_isList h _
  · intro c hc hgone
    rw [hleft] at hgone
    obtain ⟨s, hs, hcover⟩ := hl.covered_of_touched h hc hgone
    exact ⟨s, removedSpans_subset elements hs, hcover⟩

theorem setup_keeps_desired_arguments :
    let t := SyntaxTree.ofParse setupText setupTree
    let spans := (plan t 1 (staleNames (t.wiredNames 25) [⟨"d", none⟩]) .listAware).map (·.span)
    t.Named ∧ t.wiredNames 25 = ["a", "d", "b"] ∧
      IsList t 29 [32] false 36 (untouched t spans (t.significantChildren 28)) := by
  intro t spans
  have hwf : t.Named := by decide +kernel
  have hw : Wiring t 1 "C" 25 28 := by
    refine ⟨by decide +kernel, fun body hb => ?_, by decide +kernel, by decide +kernel⟩
    have hblock : t.childByField? 1 "body" = some 7 := by decide +kernel
    rw [← Option.some.inj (hblock.symm.trans hb)]
    decide +kernel
  have hl : NamesAt t 28 29 [30, 32, 35] false 36 := by
    refine ⟨⟨by decide +kernel, by decide +kernel, by decide +kernel, [30, 31, 32, 34, 35], by decide +kernel, ?_⟩,
      by decide +kernel, by decide +kernel, by decide +kernel⟩
    exact .next (by decide +kernel) (by decide +kernel)
      (.next (by decide +kernel) (by decide +kernel) (.last (by decide +kernel)))
  have hkept : [30, 32, 35].filter (fun e => [(⟨"d", none⟩ : Dependency)].any (·.name == t.textOf e)) = [32] := by
    decide +kernel
  have hupdate := update_keeps_desired_arguments setupText "C" setupTree hwf 1 25 28 29 36 [30, 32, 35] false
    [⟨"d", none⟩] hw hl ((outside_iff hwf.toNested.orderly.toLinked).mp (by decide +kernel))
  have hlist := hupdate.2.1
  exact ⟨hwf, by decide +kernel, hkept ▸ hlist⟩

end Removal

end Unwire
