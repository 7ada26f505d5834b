import Unwire.Proofs.StaleReferences
import Unwire.Setup

namespace Unwire

open Syntax

namespace Syntax.SyntaxTree

variable (t : SyntaxTree)

def functions : List (NodeId × NodeId) :=
  t.declarations.filterMap fun i =>
    if (t.node i).kind == .functionDeclaration then (t.childByField? i "name").map (i, ·) else none

def variableStatements (i : NodeId) : List NodeId :=
  match t.childByField? i "body" with
  | none => []
  | some body => (t.significantChildren body).filter fun d => (t.node d).kind == .variableStatement

def declaredNodes (statement : NodeId) : List NodeId :=
  (t.children statement).filterMap fun d =>
    if (t.node d).kind == .variableDeclarator then
      (t.childByField? d "name").filter fun x => (t.node x).kind == .identifier
    else none

def arguments? (i : NodeId) : Option NodeId := (t.descendants i).find? fun x => (t.node x).kind == .argumentList

def isWatched (i : NodeId) : Bool :=
  (t.node i).kind == .newExpression || (t.node i).kind == .argumentList || (t.node i).kind == .identifier

def watched (i : NodeId) : List NodeId := (t.descendants i).filter t.isWatched

variable {t} {i c d x : Nat}

theorem mem_functions : (i, c) ∈ t.functions ↔
    i ∈ t.declarations ∧ (t.node i).kind = .functionDeclaration ∧ t.childByField? i "name" = some c := by
  simp only [functions, List.mem_filterMap]
  constructor
  · rintro ⟨j, hj, hif⟩
    split at hif
    · next hk =>
        obtain ⟨c', hc', heq⟩ := Option.map_eq_some_iff.mp hif
        cases heq
        exact ⟨hj, by simpa using hk, hc'⟩
    · cases hif
  · rintro ⟨hi, hk, hc⟩
    exact ⟨i, hi, by simp [hk, hc]⟩

theorem findSetup?_eq (start : String) :
    t.findSetup? start = t.functions.findSome? fun f =>
      if start.toList.isPrefixOf (t.textOf f.2).toList then some ⟨f.1, t.textOf f.2⟩ else none := by
  rw [findSetup?, functions]
  induction t.declarations with
  | nil => rfl
  | cons i rest ih =>
      rw [List.findSome?_cons, List.filterMap_cons, ih, setupFunction?]
      by_cases hk : (t.node i).kind = .functionDeclaration
      · cases hc : t.childByField? i "name" with
        | none => simp [hk]
        | some c => simp [hk, List.findSome?_cons]
      · simp [hk]

theorem mem_variableStatements :
    d ∈ t.variableStatements i ↔ ∃ body, t.childByField? i "body" = some body ∧ d ∈ t.significantChildren body ∧
      (t.node d).kind = .variableStatement := by
  rw [variableStatements]
  cases t.childByField? i "body" <;> simp

theorem declaredNames_eq (d : NodeId) : Removal.declaredNames t d = (t.declaredNodes d).map t.textOf := by
  rw [Removal.declaredNames, declaredNodes, List.map_filterMap]
  congr 1
  funext v
  split
  · cases t.childByField? v "name" with
    | none => rfl
    | some x => by_cases hk : (t.node x).kind = .identifier <;> simp [Option.filter, hk]
  · rfl

theorem findInstantiation?_eq (i : NodeId) (className : String) :
    t.findInstantiation? i className = (t.watched i).find? fun x =>
      (t.node x).kind == .newExpression && Text.occursIn className.toList (t.textOf x).toList := by
  rw [findInstantiation?, watched, List.find?_filter]
  congr 1
  funext x
  by_cases hk : (t.node x).kind = .newExpression <;> simp [isWatched, hk]

theorem arguments?_eq (i : NodeId) :
    t.arguments? i = (t.watched i).find? fun x => (t.node x).kind == .argumentList := by
  rw [arguments?, watched, List.find?_filter]
  congr 1
  funext x
  by_cases hk : (t.node x).kind = .argumentList <;> simp [isWatched, hk]

namespace Linked

variable (h : t.Linked)
include h

theorem mem_watched : x ∈ t.watched i ↔ t.Below i x ∧ t.isWatched x = true := by
  rw [watched, List.mem_filter, h.mem_descendants]

theorem mem_wiredNames {inst : NodeId} {name : String} :
    name ∈ t.wiredNames inst ↔ ∃ a, t.arguments? inst = some a ∧
      ∃ x, t.Below a x ∧ (t.node x).kind = .identifier ∧ t.textOf x = name := by
  rw [wiredNames, arguments?]
  cases (t.descendants inst).find? fun x => (t.node x).kind == .argumentList with
  | none => simp
  | some a => simp [h.mem_descendants, and_assoc]

theorem mem_watched_of_name (hb : t.Below i x) (hk : (t.node x).kind = .identifier) : x ∈ t.watched i :=
  h.mem_watched.mpr ⟨hb, by simp [isWatched, hk]⟩

theorem watched_subset (hb : t.Below i d) : t.watched d ⊆ t.watched i := by
  intro x hx
  obtain ⟨hdx, hw⟩ := h.mem_watched.mp hx
  exact h.mem_watched.mpr ⟨hb.trans hdx, hw⟩

end Linked

theorem mem_declaredNodes (hx : x ∈ t.declaredNodes d) : t.Below d x ∧ (t.node x).kind = .identifier := by
  obtain ⟨v, hv, hif⟩ := List.mem_filterMap.mp hx
  split at hif
  · obtain ⟨hname, hk⟩ := Option.filter_eq_some_iff.mp hif
    exact ⟨.child (.child .self hv) (List.mem_of_find?_eq_some hname), by simpa using hk⟩
  · cases hif

end Syntax.SyntaxTree

namespace Removal

/-- Whether a node goes away as a whole. -/
def isLost (t : SyntaxTree) (spans : List Span) (i : NodeId) : Bool := spans.any (·.covers (t.node i))

def Untouched (t : SyntaxTree) (spans : List Span) (i : NodeId) : Prop :=
  ∀ s ∈ spans, s.touches (t.node i) = false

instance (t : SyntaxTree) (spans : List Span) (i : NodeId) : Decidable (Untouched t spans i) :=
  inferInstanceAs (Decidable (∀ s ∈ spans, _))

/-- What an update looks at in the function `i` of `t'` is what is left of what it looked at in `t`. What it does not
look at is free: comments may stand elsewhere, and other nodes may be read as something else. -/
structure RemainsIn (t : SyntaxTree) (spans : List Span) (t' : SyntaxTree) (origin : NodeId → NodeId) (i : NodeId) :
    Prop where
  statements : ∀ d ∈ t'.variableStatements i,
    origin d ∈ t.variableStatements (origin i) ∧ isLost t spans (origin d) = false ∧
      ∀ x ∈ t'.declaredNodes d, origin x ∈ t.declaredNodes (origin d)
  watched : ∀ x ∈ i :: t'.watched i, (t'.watched x).map origin = (t.watched (origin x)).filter (!isLost t spans ·)
  kind : ∀ x ∈ t'.watched i, (t'.node x).kind = (t.node (origin x)).kind
  declared : ∀ x ∈ t'.watched i, (t'.node x).kind = .identifier → isDeclaredName t' x = isDeclaredName t (origin x)
  text : ∀ x ∈ t'.watched i, (t'.node x).kind = .identifier → Untouched t spans (origin x) →
    t'.textOf x = t.textOf (origin x)

/-- `t'` has the functions of `t`, and `setup` is one of them of which something went away. -/
structure Remains (t : SyntaxTree) (setup : NodeId) (spans : List Span) (t' : SyntaxTree)
    (origin : NodeId → NodeId) : Prop where
  functions : t'.functions.map (Prod.map origin origin) = t.functions
  text : ∀ f ∈ t'.functions, Untouched t spans (origin f.2) → t'.textOf f.2 = t.textOf (origin f.2)
  inside : ∀ f ∈ t'.functions, origin f.1 = setup → RemainsIn t spans t' origin f.1

variable {t t' : SyntaxTree} {spans : List Span} {origin : NodeId → NodeId} {i j x : Nat}

theorem isLost_above (h : t.Orderly) (hj : isLost t spans j = false) (hb : t.Below i j) :
    isLost t spans i = false := by
  rw [isLost, List.any_eq_false] at hj ⊢
  intro s hs hcover
  exact hj s hs (covers_of_below h hcover hb)

theorem find?_kept {l l' : List Nat} (hmap : l'.map origin = l.filter (!isLost t spans ·)) {p p' : NodeId → Bool}
    (hp : ∀ x ∈ l', p' x = p (origin x)) (hx : l.find? p = some x) (hkept : isLost t spans x = false) :
    ∃ x', l'.find? p' = some x' ∧ origin x' = x := by
  obtain ⟨hpx, pre, post, rfl, hpre⟩ := List.find?_eq_some_iff_append.mp hx
  rw [List.filter_append, List.filter_cons_of_pos (by simp [hkept])] at hmap
  obtain ⟨pre', rest', rfl, hpre', hrest⟩ := List.map_eq_append_iff.mp hmap
  obtain ⟨x', post', rfl, rfl, -⟩ := List.map_eq_cons_iff.mp hrest
  refine ⟨x', List.find?_eq_some_iff_append.mpr ⟨?_, pre', post', rfl, fun y hy => ?_⟩, rfl⟩
  · rw [hp x' (by simp)]
    exact hpx
  · have hmem : origin y ∈ pre.filter (!isLost t spans ·) := hpre' ▸ List.mem_map_of_mem hy
    rw [hp y (by simp [hy])]
    exact hpre _ (List.mem_filter.mp hmem).1

namespace RemainsIn

variable (hr : RemainsIn t spans t' origin i)
include hr

theorem mem_watched (hj : j ∈ i :: t'.watched i) (hx : x ∈ t'.watched j) :
    origin x ∈ t.watched (origin j) ∧ isLost t spans (origin x) = false := by
  have hmem := List.mem_map_of_mem (f := origin) hx
  rw [hr.watched j hj, List.mem_filter] at hmem
  exact ⟨hmem.1, by simpa using hmem.2⟩

/-- The same instantiation is found again, if it is left and the same `new` expressions mention the class. -/
theorem findInstantiation? {className : String} {inst : NodeId}
    (hmention : ∀ x ∈ t'.watched i, (t'.node x).kind = .newExpression →
      Text.occursIn className.toList (t'.textOf x).toList = Text.occursIn className.toList (t.textOf (origin x)).toList)
    (hfound : t.findInstantiation? (origin i) className = some inst) (hinst : isLost t spans inst = false) :
    ∃ inst' ∈ t'.watched i, t'.findInstantiation? i className = some inst' ∧ origin inst' = inst := by
  rw [SyntaxTree.findInstantiation?_eq] at hfound
  have hp : ∀ x ∈ t'.watched i,
      ((t'.node x).kind == .newExpression && Text.occursIn className.toList (t'.textOf x).toList) =
        ((t.node (origin x)).kind == .newExpression && Text.occursIn className.toList (t.textOf (origin x)).toList) := by
    intro x hx
    by_cases hk : (t'.node x).kind = .newExpression
    · rw [hr.kind x hx, hmention x hx hk]
    · rw [← hr.kind x hx, beq_eq_false_iff_ne.mpr hk, Bool.false_and, Bool.false_and]
  obtain ⟨inst', hfind, horigin⟩ := find?_kept (hr.watched i List.mem_cons_self) hp hfound hinst
  exact ⟨inst', List.mem_of_find?_eq_some hfind, by rw [SyntaxTree.findInstantiation?_eq, hfind], horigin⟩

variable (h' : t'.Linked) {inst : NodeId} (hinst : inst ∈ t'.watched i)
include h' hinst

theorem arguments?_origin (hargs : ∀ a, t.arguments? (origin inst) = some a → isLost t spans a = false) {a : NodeId}
    (ha : t'.arguments? inst = some a) : t.arguments? (origin inst) = some (origin a) := by
  have hin := h'.watched_subset (h'.mem_watched.mp hinst).1
  have hkind : ∀ x ∈ t'.watched inst,
      ((t'.node x).kind == .argumentList) = ((t.node (origin x)).kind == .argumentList) :=
    fun x hx => by rw [hr.kind x (hin hx)]
  rw [SyntaxTree.arguments?_eq] at ha
  have hmem := List.mem_of_find?_eq_some ha
  have hlist := List.find?_some ha
  rw [hkind a hmem] at hlist
  have hold := (hr.mem_watched (List.mem_cons_of_mem _ hinst) hmem).1
  obtain ⟨b, hb⟩ : ∃ b, t.arguments? (origin inst) = some b := by
    rw [SyntaxTree.arguments?_eq, ← Option.isSome_iff_exists, List.find?_isSome]
    exact ⟨origin a, hold, hlist⟩
  have hkept := hargs b hb
  rw [SyntaxTree.arguments?_eq] at hb ⊢
  obtain ⟨b', hb', rfl⟩ := find?_kept (hr.watched inst (List.mem_cons_of_mem _ hinst)) hkind hb hkept
  rw [hb, Option.some.inj (ha.symm.trans hb')]

theorem wiredNames_subset (h : t.Linked)
    (hargs : ∀ a, t.arguments? (origin inst) = some a → isLost t spans a = false)
    (hname : ∀ x, (t.node x).kind = .identifier → isLost t spans x = false → Untouched t spans x) :
    t'.wiredNames inst ⊆ t.wiredNames (origin inst) := by
  intro name hmem
  obtain ⟨a, ha, x, hax, hk, rfl⟩ := h'.mem_wiredNames.mp hmem
  have hold := hr.arguments?_origin h' hinst hargs ha
  rw [SyntaxTree.arguments?_eq] at ha
  have haw := h'.watched_subset (h'.mem_watched.mp hinst).1 (List.mem_of_find?_eq_some ha)
  have hxa := h'.mem_watched_of_name hax hk
  have hxw := h'.watched_subset (h'.mem_watched.mp haw).1 hxa
  obtain ⟨hxo, hlost⟩ := hr.mem_watched (List.mem_cons_of_mem _ haw) hxa
  have hko : (t.node (origin x)).kind = .identifier := hr.kind x hxw ▸ hk
  rw [hr.text x hxw hk (hname _ hko hlost)]
  exact h.mem_wiredNames.mpr ⟨origin a, hold, origin x, (h.mem_watched.mp hxo).1, hko, rfl⟩

end RemainsIn

end Removal

end Unwire
