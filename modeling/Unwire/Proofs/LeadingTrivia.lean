import Mathlib.Data.List.Find
import Unwire.Proofs.SeparatedLists

namespace Unwire.Syntax

namespace Spot

/-- In a row, the lead is the end of the last place before that is no comment. -/
theorem lead_of_split {parent : NodeId} {id lead : Nat} {ts : List Parse.Tree} {c : Spot} {pre post : List Spot}
    (h : row parent id lead ts = pre ++ c :: post) :
    c.lead = (pre.reverse.find? (!·.isTrivia)).elim lead fun d => d.tree.stop := by
  induction ts generalizing id lead pre with
  | nil => simp [row] at h
  | cons t ts ih =>
      rw [row] at h
      cases pre with
      | nil =>
          obtain ⟨rfl, _⟩ := List.cons.inj h
          rfl
      | cons s pre =>
          obtain ⟨rfl, hrest⟩ := List.cons.inj h
          rw [ih hrest]
          rw [List.reverse_cons, List.find?_append]
          cases pre.reverse.find? (!·.isTrivia) with
          | some d => rfl
          | none => cases ht : (Kind.ofName t.kind).isTrivia <;> simp [isTrivia, ht]

end Spot

namespace SyntaxTree

def elder? (t : SyntaxTree) (i : NodeId) : Option NodeId :=
  (t.node i).parent.bind fun p => ((t.children p).takeWhile (· != i)).reverse.find? (!t.isTrivia ·)

/-- The last node before `i` that is no comment: among the siblings of `i`, or else among those of the closest node
above that has such a sibling. -/
def lastBefore? (t : SyntaxTree) (i : NodeId) : Option NodeId := (t.ancestors i).findSome? t.elder?

namespace Linked

variable {t : SyntaxTree} (h : t.Linked) {i p : Nat}
include h

theorem upward_congr (i : Nat) {fuel : Nat} (fuel' : Nat) (hi : i < fuel) (hi' : i < fuel') :
    t.upward fuel i = t.upward fuel' i := by
  induction fuel generalizing i fuel' with
  | zero => exact absurd hi (Nat.not_lt_zero _)
  | succ fuel ih =>
      obtain ⟨fuel', rfl⟩ := Nat.exists_eq_add_one.mpr (Nat.lt_of_le_of_lt (Nat.zero_le _) hi')
      rw [upward, upward]
      cases hp : (t.node i).parent with
      | none => rfl
      | some p =>
          have hlt := h.lt_of_mem (h.mem_of_parent hp)
          rw [Option.map_some, Option.map_some, ih p fuel' (by omega) (by omega)]

theorem ancestors_of_parent (hp : (t.node i).parent = some p) : t.ancestors i = i :: t.ancestors p := by
  have hmem := h.mem_of_parent hp
  have hlt := h.lt_of_mem hmem
  have hsize := h.lt_size_of_mem hmem
  obtain ⟨n, hn⟩ := Nat.exists_eq_add_one.mpr h.size_pos
  rw [ancestors, ancestors, hn, upward, hp, Option.map_some, Option.getD_some,
    h.upward_congr p (n + 1) (by omega) (by omega)]

theorem ancestors_of_root (hp : (t.node i).parent = none) : t.ancestors i = [i] := by
  obtain ⟨n, hn⟩ := Nat.exists_eq_add_one.mpr h.size_pos
  rw [ancestors, hn, upward, hp]
  rfl

end Linked

section Leads

variable {text : String} {p : Parse.ParseTree}

theorem elder?_child {s c : Spot} {pre post : List Spot} (hs : s ∈ (rootSpot p).all)
    (hsplit : s.children = pre ++ c :: post) :
    (ofParse text p).elder? c.id = (pre.reverse.find? (!·.isTrivia)).map Spot.id := by
  have hnode : ∀ d ∈ s.children, (ofParse text p).node d.id = d.node := fun d hd =>
    ofParse_node (Spot.child_mem_all hs hd)
  have hc : c ∈ s.children := by simp [hsplit]
  have hids : (ofParse text p).children s.id = pre.map Spot.id ++ c.id :: post.map Spot.id := by
    rw [ofParse_children hs, hsplit, List.map_append, List.map_cons]
  have hlt := (ofParse_linked text p).children_lt s.id
  rw [hids, List.pairwise_append] at hlt
  have hout : c.id ∉ pre.map Spot.id := fun hmem =>
    Nat.lt_irrefl _ (hlt.2.2 _ hmem _ List.mem_cons_self)
  have hparent : ((ofParse text p).node c.id).parent = some s.id := by
    rw [hnode c hc]
    exact (Spot.mem_row hc).2.1
  have htrivia : ∀ d ∈ pre.reverse, (!(ofParse text p).isTrivia d.id) = !d.isTrivia := by
    intro d hd
    rw [isTrivia, hnode d (by simp [hsplit, List.mem_reverse.mp hd])]
    rfl
  rw [elder?, hparent, Option.bind_some, hids, (cut_append_cons hout).1, ← List.map_reverse, List.find?_map]
  congr 1
  exact List.find?_congr htrivia

theorem lead_eq {s : Spot} (hs : s ∈ (rootSpot p).all) :
    s.lead = ((ofParse text p).lastBefore? s.id).elim 0 fun m => ((ofParse text p).node m).stop := by
  induction hn : s.id using Nat.strongRecOn generalizing s with
  | ind n ih =>
      have hlinked := ofParse_linked text p
      rcases Spot.exists_parent hs with rfl | ⟨r, hr, hsr⟩
      · have hparent : ((ofParse text p).node (rootSpot p).id).parent = none := by
          rw [ofParse_node hs]
          rfl
        rw [← hn, lastBefore?, hlinked.ancestors_of_root hparent, List.findSome?_singleton, elder?, hparent]
        rfl
      · obtain ⟨pre, post, hsplit⟩ := List.append_of_mem hsr
        have hparent : ((ofParse text p).node s.id).parent = some r.id := by
          rw [ofParse_node hs]
          exact (Spot.mem_row hsr).2.1
        have hlead := ih r.id (hn ▸ (Spot.mem_row hsr).2.2) hr rfl
        rw [← hn, lastBefore?, hlinked.ancestors_of_parent hparent, List.findSome?_cons, elder?_child hr hsplit,
          Spot.lead_of_split hsplit]
        cases hd : pre.reverse.find? (!·.isTrivia) with
        | none => exact hlead
        | some d =>
            have hmem : d ∈ r.children := by simp [hsplit, List.mem_reverse.mp (List.mem_of_find?_eq_some hd)]
            simp [ofParse_node (Spot.child_mem_all hr hmem), Spot.node]

end Leads

variable {t : SyntaxTree} {l m n : Nat}

theorem Orderly.not_touches_lead (h : t.Orderly) (hn : n < t.nodes.size) (hl : l < t.nodes.size)
    (hleaf : t.children l = []) (hlt : t.isTrivia l = false) :
    (Span.mk (t.node n).fullStart (t.node n).start).touches (t.node l) = false := by
  rw [Bool.eq_false_iff, ne_eq, Span.touches_iff]
  rintro ⟨⟨hleft, hright⟩, _⟩
  dsimp only at hleft hright
  rcases h.below_or_before hn hl with hnl | hln | hnl | hln
  · have := (h.range_of_below hnl).1
    omega
  · obtain rfl := eq_of_below_leaf hleaf hln
    omega
  · have := h.stop_le_start hnl
    have := h.start_le_stop n
    omega
  · have := h.stop_le_lead hln hlt
    omega

theorem Orderly.stop_le_lead_of_lt (h : t.Orderly) (hn : n < t.nodes.size) (hmn : m < n) (hmt : t.isTrivia m = false)
    (hout : t.isWithin n m = false) : (t.node m).stop ≤ (t.node n).fullStart := by
  rcases h.below_or_before_of_lt hmn hn with hb | hb
  · exact absurd (h.isWithin_iff.mpr hb) (by simp [hout])
  · exact h.stop_le_lead hb hmt

/-- Before a node there are only blanks and comments back to its full start. That is the end of the last node before
it that is no comment, or the start of the text, and nothing else that comes before the node reaches beyond it. -/
theorem fullStart_delimits (text : String) (p : Parse.ParseTree) (h : (ofParse text p).Nested) (n : NodeId)
    (hn : n < (ofParse text p).nodes.size) :
    let t := ofParse text p
    (t.node n).fullStart = (t.lastBefore? n).elim 0 (fun m => (t.node m).stop) ∧
      (t.node n).fullStart ≤ (t.node n).start ∧
      (∀ l < t.nodes.size, t.children l = [] → t.isTrivia l = false →
        (Span.mk (t.node n).fullStart (t.node n).start).touches (t.node l) = false) ∧
      ∀ m < n, t.isTrivia m = false → t.isWithin n m = false → (t.node m).stop ≤ (t.node n).fullStart := by
  intro t
  have hord : t.Orderly := h.orderly
  refine ⟨?_, hord.fullStart_le_start n, fun l => hord.not_touches_lead hn, fun m => hord.stop_le_lead_of_lt hn⟩
  obtain ⟨s, hs, rfl⟩ := exists_spot hn
  rw [h.fullStart_eq_lead hs, lead_eq hs]

theorem call_fullStarts :
    let t := ofParse Removal.callText Removal.callTree
    t.lastBefore? 8 = some 6 ∧ (t.node 8).fullStart = (t.node 6).stop ∧ t.isTrivia 7 = true ∧
      t.elder? 5 = none ∧ t.lastBefore? 5 = some 3 ∧ (t.node 5).fullStart = (t.node 3).stop := by
  intro t
  have hcomma := (fullStart_delimits Removal.callText Removal.callTree (by decide) 8 (by decide)).1
  have hbracket := (fullStart_delimits Removal.callText Removal.callTree (by decide) 5 (by decide)).1
  have hlast : t.lastBefore? 8 = some 6 ∧ t.lastBefore? 5 = some 3 := by decide
  refine ⟨hlast.1, ?_, by decide, by decide, hlast.2, ?_⟩
  · rw [hcomma, hlast.1]
    rfl
  · rw [hbracket, hlast.2]
    rfl

end SyntaxTree

end Unwire.Syntax
