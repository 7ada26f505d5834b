import Mathlib.Data.List.Forall2
import Mathlib.Data.List.Sort
import Unwire.Proofs.ByteOffsets
import Unwire.Proofs.TreeOrder

namespace Unwire.Syntax

open Unwire.Parse (Tree ParseTree)
open Unwire.Text (width width_append)

/-- Blanks, and then a token or the parts of a node. -/
inductive Doc where
  | mk (gap : List Char) (kind : String) (field : Option String) (word : List Char) (parts : List Doc)

namespace Doc

def gap : Doc → List Char
  | mk g _ _ _ _ => g

def kind : Doc → String
  | mk _ k _ _ _ => k

def field : Doc → Option String
  | mk _ _ f _ _ => f

def word : Doc → List Char
  | mk _ _ _ w _ => w

def parts : Doc → List Doc
  | mk _ _ _ _ ds => ds

def token (gap kind word : String) : Doc := mk gap.toList kind none word.toList []

def mark (gap word : String) : Doc := token gap word word

def node (gap kind : String) (parts : List Doc) : Doc := mk gap.toList kind none [] parts

def labelled (d : Doc) (field : String) : Doc := mk d.gap d.kind (some field) d.word d.parts

mutual

def text : Doc → List Char
  | mk gap _ _ word parts => gap ++ (word ++ textAll parts)

def textAll : List Doc → List Char
  | [] => []
  | d :: ds => d.text ++ textAll ds

end

def body (d : Doc) : List Char := d.word ++ textAll d.parts

mutual

/-- The tree of a piece whose blanks start at byte `offset`. -/
def place (offset : Nat) : Doc → Tree
  | mk gap kind field word parts =>
    .node kind field (offset + width gap) (offset + width gap + width (word ++ textAll parts))
      (placeAll (offset + width gap + width word) parts)

def placeAll (offset : Nat) : List Doc → List Tree
  | [] => []
  | d :: ds => d.place offset :: placeAll (offset + width d.text) ds

end

mutual

def has (q : Doc → Bool) : Doc → Bool
  | mk gap kind field word parts => q (mk gap kind field word parts) || hasAny q parts

def hasAny (q : Doc → Bool) : List Doc → Bool
  | [] => false
  | d :: ds => d.has q || hasAny q ds

end

mutual

def walk : Doc → List Doc
  | mk gap kind field word parts => mk gap kind field word parts :: walkAll parts

def walkAll : List Doc → List Doc
  | [] => []
  | d :: ds => d.walk ++ walkAll ds

end

def isComment (d : Doc) : Bool := (Kind.ofName d.kind).isTrivia

theorem text_eq (d : Doc) : d.text = d.gap ++ d.body := by
  obtain ⟨gap, kind, field, word, parts⟩ := d
  rw [text]
  rfl

theorem has_eq (q : Doc → Bool) (d : Doc) : d.has q = (q d || hasAny q d.parts) := by
  obtain ⟨gap, kind, field, word, parts⟩ := d
  rw [has]
  rfl

theorem place_eq (offset : Nat) (d : Doc) :
    d.place offset = .node d.kind d.field (offset + width d.gap) (offset + width d.text)
      (placeAll (offset + width d.gap + width d.word) d.parts) := by
  obtain ⟨gap, kind, field, word, parts⟩ := d
  rw [place, text, width_append gap, ← Nat.add_assoc]
  rfl

@[simp] theorem place_kind (offset : Nat) (d : Doc) : (d.place offset).kind = d.kind := by
  rw [place_eq]
  rfl

@[simp] theorem place_field (offset : Nat) (d : Doc) : (d.place offset).field = d.field := by
  rw [place_eq]
  rfl

@[simp] theorem place_start (offset : Nat) (d : Doc) : (d.place offset).start = offset + width d.gap := by
  rw [place_eq]
  rfl

@[simp] theorem place_stop (offset : Nat) (d : Doc) : (d.place offset).stop = offset + width d.text := by
  rw [place_eq]
  rfl

@[simp] theorem place_children (offset : Nat) (d : Doc) :
    (d.place offset).children = placeAll (offset + width d.gap + width d.word) d.parts := by
  rw [place_eq]
  rfl

theorem isTrivia_of_plain {d : Doc} (h : d.has isComment = false) : (Kind.ofName d.kind).isTrivia = false := by
  rw [has_eq, Bool.or_eq_false_iff] at h
  exact h.1

section Forms

variable (gap kind word field : String) (parts : List Doc) (d : Doc) (offset : Nat) (q : Doc → Bool)

@[simp] theorem token_gap : (token gap kind word).gap = gap.toList := rfl

@[simp] theorem token_kind : (token gap kind word).kind = kind := rfl

@[simp] theorem token_parts : (token gap kind word).parts = [] := rfl

@[simp] theorem token_body : (token gap kind word).body = word.toList := List.append_nil _

@[simp] theorem token_text : (token gap kind word).text = gap.toList ++ word.toList := by simp [text_eq]

@[simp] theorem token_has : (token gap kind word).has q = q (token gap kind word) := by
  rw [has_eq]
  exact Bool.or_false _

@[simp] theorem node_gap : (node gap kind parts).gap = gap.toList := rfl

@[simp] theorem node_kind : (node gap kind parts).kind = kind := rfl

@[simp] theorem node_word : (node gap kind parts).word = [] := rfl

@[simp] theorem node_parts : (node gap kind parts).parts = parts := rfl

@[simp] theorem node_body : (node gap kind parts).body = textAll parts := rfl

@[simp] theorem node_text : (node gap kind parts).text = gap.toList ++ textAll parts := by simp [text_eq]

@[simp] theorem node_has : (node gap kind parts).has q = (q (node gap kind parts) || hasAny q parts) := has_eq q _

@[simp] theorem labelled_gap : (d.labelled field).gap = d.gap := rfl

@[simp] theorem labelled_kind : (d.labelled field).kind = d.kind := rfl

@[simp] theorem labelled_field : (d.labelled field).field = some field := rfl

@[simp] theorem labelled_word : (d.labelled field).word = d.word := rfl

@[simp] theorem labelled_parts : (d.labelled field).parts = d.parts := rfl

@[simp] theorem labelled_body : (d.labelled field).body = d.body := rfl

@[simp] theorem labelled_text : (d.labelled field).text = d.text := by
  rw [text_eq, text_eq]
  rfl

@[simp] theorem labelled_has : (d.labelled field).has q = (q (d.labelled field) || hasAny q d.parts) := has_eq q _

end Forms

theorem textAll_append (ds es : List Doc) : textAll (ds ++ es) = textAll ds ++ textAll es := by
  induction ds with
  | nil => rfl
  | cons d ds ih => simp [textAll, ih]

theorem hasAny_append (q : Doc → Bool) (ds es : List Doc) : hasAny q (ds ++ es) = (hasAny q ds || hasAny q es) := by
  induction ds with
  | nil => rfl
  | cons d ds ih => simp [hasAny, ih, Bool.or_assoc]

theorem hasAny_eq_false {q : Doc → Bool} {ds : List Doc} (h : ∀ d ∈ ds, d.has q = false) : hasAny q ds = false := by
  induction ds with
  | nil => rfl
  | cons d ds ih =>
      obtain ⟨hd, hds⟩ := List.forall_mem_cons.mp h
      rw [hasAny, hd, ih hds]
      rfl

theorem walk_eq (d : Doc) : d.walk = d :: walkAll d.parts := by
  obtain ⟨gap, kind, field, word, parts⟩ := d
  rw [walk]
  rfl

theorem walkAll_append (ds es : List Doc) : walkAll (ds ++ es) = walkAll ds ++ walkAll es := by
  induction ds with
  | nil => rfl
  | cons d ds ih => simp [walkAll, ih]

theorem walkAll_leaves {ds : List Doc} (h : ∀ d ∈ ds, d.parts = []) : walkAll ds = ds := by
  induction ds with
  | nil => rfl
  | cons d ds ih =>
      obtain ⟨hd, hds⟩ := List.forall_mem_cons.mp h
      rw [walkAll, walk_eq, hd, ih hds]
      rfl

mutual

theorem find?_walk_none {q : Doc → Bool} (d : Doc) (h : d.has q = false) : d.walk.find? q = none := by
  obtain ⟨gap, kind, field, word, parts⟩ := d
  obtain ⟨hself, hparts⟩ := Bool.or_eq_false_iff.mp h
  rw [walk, List.find?_cons_of_neg (by simp [hself]), find?_walkAll_none parts hparts]

theorem find?_walkAll_none {q : Doc → Bool} (ds : List Doc) (h : hasAny q ds = false) :
    (walkAll ds).find? q = none := by
  cases ds with
  | nil => rfl
  | cons d ds =>
      obtain ⟨hd, hds⟩ := Bool.or_eq_false_iff.mp h
      rw [walkAll, List.find?_append, find?_walk_none d hd, find?_walkAll_none ds hds]
      rfl

end

/-- A walk finds what it finds in the first part that has something to find. -/
theorem find?_walk_part (before : List Doc) {q : Doc → Bool} {d e x : Doc} {after : List Doc}
    (hparts : d.parts = before ++ e :: after) (hself : q d = false) (hbefore : hasAny q before = false)
    (hfound : e.walk.find? q = some x) : d.walk.find? q = some x := by
  rw [walk_eq, List.find?_cons_of_neg (by simp [hself]), hparts, walkAll_append, List.find?_append,
    find?_walkAll_none before hbefore, Option.none_or, walkAll, List.find?_append, hfound, Option.some_or]

end Doc

/-- The text has `part` at byte `offset`. -/
def Holds (text : List Char) (offset : Nat) (part : List Char) : Prop :=
  ∃ pre post, text = pre ++ part ++ post ∧ width pre = offset

theorem Holds.left {text as bs : List Char} {offset : Nat} (h : Holds text offset (as ++ bs)) :
    Holds text offset as := by
  obtain ⟨pre, post, rfl, hw⟩ := h
  exact ⟨pre, bs ++ post, by simp, hw⟩

theorem Holds.right {text as bs : List Char} {offset : Nat} (h : Holds text offset (as ++ bs)) :
    Holds text (offset + width as) bs := by
  obtain ⟨pre, post, rfl, hw⟩ := h
  exact ⟨pre ++ as, post, by simp, by rw [width_append, hw]⟩

theorem Holds.append {text as bs : List Char} {offset : Nat} (ha : Holds text offset as)
    (hb : Holds text (offset + width as) bs) : Holds text offset (as ++ bs) := by
  obtain ⟨pre, post, htext, hpre⟩ := ha
  obtain ⟨pre', post', htext', hpre'⟩ := hb
  have hpost := Text.dropBytes?_append (pre ++ as) post
  have hpost' := Text.dropBytes?_append pre' (bs ++ post')
  rw [← htext, width_append, hpre] at hpost
  rw [← List.append_assoc, ← htext', hpre', hpost] at hpost'
  obtain rfl := Option.some.inj hpost'
  exact ⟨pre, post', by simpa using htext, hpre⟩

theorem Holds.slice {text part : List Char} {offset : Nat} (h : Holds text offset part) :
    Text.slice? offset (offset + width part) text = some part := by
  obtain ⟨pre, post, htext, hw⟩ := h
  exact Text.slice?_eq_some_iff.mpr ⟨pre, post, htext, hw, rfl⟩

open SyntaxTree (rootSpot ofParse)

theorem Holds.textBetween {text : String} {p : ParseTree} {part : List Char} {offset : Nat}
    (h : Holds text.toList offset part) : (ofParse text p).textBetween offset (offset + width part) = .ofList part := by
  have hslice : Text.slice? offset (offset + width part) (ofParse text p).text = some part := h.slice
  rw [SyntaxTree.textBetween, hslice]
  rfl

/-- Node `i` of the tree of a text is that of a piece without comments, whose blanks start at byte `offset`. `lead` is
where the blanks before the node start, those before the nodes around it that start with it included. -/
structure Shows (text : String) (p : ParseTree) (i : NodeId) (lead offset : Nat) (d : Doc) : Prop where
  spot : ∃ s ∈ (rootSpot p).all, s.id = i ∧ s.lead = lead ∧ s.tree = d.place offset
  lead_le : lead ≤ offset
  holds : Holds text.toList offset d.text
  plain : d.has Doc.isComment = false

/-- Siblings that are those of pieces, one after the other. -/
inductive ShowsRow (text : String) (p : ParseTree) : Nat → List Doc → List NodeId → Prop
  | nil {offset : Nat} : ShowsRow text p offset [] []
  | cons {offset : Nat} {d : Doc} {ds : List Doc} {c : NodeId} {cs : List NodeId}
      (head : Shows text p c offset offset d) (tail : ShowsRow text p (offset + width d.text) ds cs) :
      ShowsRow text p offset (d :: ds) (c :: cs)

variable {text : String} {p : ParseTree} {i lead offset : Nat} {d : Doc} {ds es : List Doc} {cs : List Nat}

theorem ShowsRow.uncons (h : ShowsRow text p offset (d :: ds) cs) :
    ∃ c rest, cs = c :: rest ∧ Shows text p c offset offset d ∧ ShowsRow text p (offset + width d.text) ds rest := by
  cases h with
  | cons head tail => exact ⟨_, _, rfl, head, tail⟩

theorem ShowsRow.eq_nil (h : ShowsRow text p offset [] cs) : cs = [] := by
  cases h
  rfl

theorem ShowsRow.append (h : ShowsRow text p offset (ds ++ es) cs) :
    ∃ as bs, cs = as ++ bs ∧ ShowsRow text p offset ds as ∧
      ShowsRow text p (offset + width (Doc.textAll ds)) es bs := by
  induction ds generalizing offset cs with
  | nil => exact ⟨[], cs, rfl, .nil, by simpa [Doc.textAll, width] using h⟩
  | cons d ds ih =>
      cases h with
      | cons head tail =>
          obtain ⟨as, bs, rfl, has, hbs⟩ := ih tail
          refine ⟨_ :: as, bs, rfl, .cons head has, ?_⟩
          rwa [Doc.textAll, width_append, ← Nat.add_assoc]

theorem ShowsRow.exists_shows (h : ShowsRow text p offset ds cs) {c : NodeId} (hc : c ∈ cs) :
    ∃ d ∈ ds, ∃ o, Shows text p c o o d := by
  induction h with
  | nil => exact absurd hc List.not_mem_nil
  | cons head tail ih =>
      rcases List.mem_cons.mp hc with rfl | hc
      · exact ⟨_, List.mem_cons_self, _, head⟩
      · obtain ⟨d, hd, hshows⟩ := ih hc
        exact ⟨d, List.mem_cons_of_mem _ hd, hshows⟩

theorem showsRow_row {parent : NodeId} {id : Nat}
    (hmem : ∀ c ∈ Spot.row parent id offset (Doc.placeAll offset ds), c ∈ (rootSpot p).all)
    (holds : Holds text.toList offset (Doc.textAll ds)) (plain : Doc.hasAny Doc.isComment ds = false) :
    ShowsRow text p offset ds ((Spot.row parent id offset (Doc.placeAll offset ds)).map Spot.id) := by
  induction ds generalizing offset id with
  | nil => exact .nil
  | cons d ds ih =>
      rw [Doc.hasAny, Bool.or_eq_false_iff] at plain
      rw [Doc.textAll] at holds
      rw [Doc.placeAll, Spot.row, Doc.place_kind, Doc.isTrivia_of_plain plain.1, Doc.place_stop] at hmem ⊢
      obtain ⟨hhead, htail⟩ := List.forall_mem_cons.mp hmem
      exact .cons ⟨⟨_, hhead, rfl, rfl, rfl⟩, Nat.le_refl _, holds.left, plain.1⟩ (ih htail holds.right plain.2)

namespace Shows

variable (hs : Shows text p i lead offset d)
include hs

theorem node_eq : ∃ parent children, (ofParse text p).node i =
    ⟨.ofName d.kind, d.field, lead, offset + width d.gap, offset + width d.text, parent, children⟩ := by
  obtain ⟨s, hmem, rfl, rfl, htree⟩ := hs.spot
  have hlead : min s.lead (offset + width d.gap) = s.lead :=
    Nat.min_eq_left (Nat.le_trans hs.lead_le (Nat.le_add_right _ _))
  refine ⟨s.parent, s.children.map Spot.id, ?_⟩
  rw [SyntaxTree.ofParse_node hmem, Spot.node, htree, Doc.place_kind, Doc.place_field, Doc.place_start, Doc.place_stop,
    hlead]

theorem kind : ((ofParse text p).node i).kind = .ofName d.kind := by
  obtain ⟨parent, children, he⟩ := hs.node_eq
  rw [he]

theorem field : ((ofParse text p).node i).field = d.field := by
  obtain ⟨parent, children, he⟩ := hs.node_eq
  rw [he]

theorem fullStart : ((ofParse text p).node i).fullStart = lead := by
  obtain ⟨parent, children, he⟩ := hs.node_eq
  rw [he]

theorem start : ((ofParse text p).node i).start = offset + width d.gap := by
  obtain ⟨parent, children, he⟩ := hs.node_eq
  rw [he]

theorem stop : ((ofParse text p).node i).stop = offset + width d.text := by
  obtain ⟨parent, children, he⟩ := hs.node_eq
  rw [he]

theorem textOf : (ofParse text p).textOf i = .ofList d.body := by
  have hbody := hs.holds
  rw [d.text_eq] at hbody
  rw [SyntaxTree.textOf, hs.start, hs.stop, d.text_eq, width_append, ← Nat.add_assoc]
  exact hbody.right.textBetween

theorem isTrivia : (ofParse text p).isTrivia i = false := by
  rw [SyntaxTree.isTrivia, hs.kind]
  exact Doc.isTrivia_of_plain hs.plain

theorem children_nil (hparts : d.parts = []) : (ofParse text p).children i = [] := by
  obtain ⟨s, hmem, rfl, _, htree⟩ := hs.spot
  rw [SyntaxTree.ofParse_children hmem, Spot.children, htree, Doc.place_children, hparts]
  rfl

/-- The first part starts where the node does, and the others follow. -/
theorem children_cons {e : Doc} (hparts : d.parts = e :: es) :
    ∃ c cs, (ofParse text p).children i = c :: cs ∧ Shows text p c lead (offset + width d.gap + width d.word) e ∧
      ShowsRow text p (offset + width d.gap + width d.word + width e.text) es cs := by
  obtain ⟨s, hmem, rfl, rfl, htree⟩ := hs.spot
  have hplain := hs.plain
  rw [Doc.has_eq, hparts, Doc.hasAny, Bool.or_eq_false_iff, Bool.or_eq_false_iff] at hplain
  have holds := hs.holds
  rw [Doc.text_eq, Doc.body, hparts, Doc.textAll] at holds
  have hall : ∀ c ∈ s.children, c ∈ (rootSpot p).all := fun c hc => Spot.child_mem_all hmem hc
  rw [SyntaxTree.ofParse_children hmem]
  rw [Spot.children, htree, Doc.place_children, hparts, Doc.placeAll, Spot.row, Doc.place_kind,
    Doc.isTrivia_of_plain hplain.2.1, Doc.place_stop] at hall ⊢
  obtain ⟨hhead, htail⟩ := List.forall_mem_cons.mp hall
  refine ⟨_, _, rfl, ⟨⟨_, hhead, rfl, rfl, rfl⟩, ?_, holds.right.right.left, hplain.2.1⟩, ?_⟩
  · have hle := hs.lead_le
    omega
  · exact showsRow_row htail holds.right.right.right hplain.2.2

theorem significantChildren_eq : (ofParse text p).significantChildren i = (ofParse text p).children i := by
  refine List.filter_eq_self.mpr fun c hc => ?_
  obtain ⟨gap, kind, field, word, parts⟩ := d
  cases parts with
  | nil => simp [hs.children_nil rfl] at hc
  | cons e es =>
      obtain ⟨first, rest, hchildren, hfirst, hrest⟩ := hs.children_cons rfl
      rcases List.mem_cons.mp (hchildren ▸ hc) with rfl | hc
      · simp [hfirst.isTrivia]
      · obtain ⟨e, _, o, hshows⟩ := hrest.exists_shows hc
        simp [hshows.isTrivia]

end Shows

theorem SyntaxTree.Linked.descendants_eq {t : SyntaxTree} (h : t.Linked) (i : NodeId) :
    t.descendants i = i :: (t.children i).flatMap t.descendants := by
  have hlt : (i :: (t.children i).flatMap t.descendants).Pairwise (· < ·) := by
    refine List.Pairwise.cons (fun j hj => ?_) (List.pairwise_flatMap.mpr ⟨fun c _ => h.descendants_lt c, ?_⟩)
    · obtain ⟨c, hc, hj⟩ := List.mem_flatMap.mp hj
      exact Nat.lt_of_lt_of_le (h.lt_of_mem hc) (h.le_of_below (h.mem_descendants.mp hj))
    · refine (h.blocks i).imp fun {c d} hcd a ha b hb => ?_
      exact hcd a b (h.mem_descendants.mp ha) (h.mem_descendants.mp hb)
  refine (h.descendants_lt i).eq_of_mem_iff hlt fun j => ?_
  rw [h.mem_descendants, SyntaxTree.below_iff_child, List.mem_cons, List.mem_flatMap]
  simp only [h.mem_descendants]

def Showing (text : String) (p : ParseTree) (i : NodeId) (d : Doc) : Prop := ∃ lead offset, Shows text p i lead offset d

mutual

/-- A walk down from a node goes as the walk through its piece. -/
theorem Shows.descendants (d : Doc) {i lead offset : Nat} (hs : Shows text p i lead offset d) :
    List.Forall₂ (Showing text p) ((ofParse text p).descendants i) d.walk := by
  rw [(SyntaxTree.ofParse_linked text p).descendants_eq, Doc.walk_eq]
  refine .cons ⟨lead, offset, hs⟩ ?_
  obtain ⟨gap, kind, field, word, parts⟩ := d
  cases parts with
  | nil =>
      rw [hs.children_nil rfl]
      exact .nil
  | cons e es =>
      obtain ⟨c, cs, hchildren, hc, hcs⟩ := hs.children_cons rfl
      rw [hchildren]
      exact List.rel_append (hc.descendants e) (hcs.descendants es)

theorem ShowsRow.descendants (ds : List Doc) {offset : Nat} {cs : List NodeId} (hrow : ShowsRow text p offset ds cs) :
    List.Forall₂ (Showing text p) (cs.flatMap (ofParse text p).descendants) (Doc.walkAll ds) := by
  cases ds with
  | nil =>
      cases hrow
      exact .nil
  | cons d ds =>
      obtain _ | ⟨hhead, htail⟩ := hrow
      exact List.rel_append (hhead.descendants d) (htail.descendants ds)

end

section Walk

theorem Showing.kind_eq (h : Showing text p i d) (kind : Kind) :
    (((ofParse text p).node i).kind == kind) = (Kind.ofName d.kind == kind) := by
  obtain ⟨lead, offset, hs⟩ := h
  rw [hs.kind]

variable {is : List NodeId} {pred : NodeId → Bool} {q : Doc → Bool}

theorem find?_of_showing (h : List.Forall₂ (Showing text p) is ds)
    (hpred : ∀ {i d}, Showing text p i d → pred i = q d) (hfound : ds.find? q = some d) :
    ∃ i, is.find? pred = some i ∧ Showing text p i d := by
  induction h with
  | nil => simp at hfound
  | @cons i e is ds he _ ih =>
      rw [List.find?_cons, hpred he]
      rw [List.find?_cons] at hfound
      split at hfound
      · obtain rfl := Option.some.inj hfound
        exact ⟨i, rfl, he⟩
      · exact ih hfound

theorem map_filter_of_showing {β : Type} {f : NodeId → β} {g : Doc → β} (h : List.Forall₂ (Showing text p) is ds)
    (hpred : ∀ {i d}, Showing text p i d → pred i = q d) (hf : ∀ {i d}, Showing text p i d → f i = g d) :
    (is.filter pred).map f = (ds.filter q).map g := by
  induction h with
  | nil => rfl
  | cons he _ ih =>
      rw [List.filter_cons, List.filter_cons, hpred he]
      split
      · rw [List.map_cons, List.map_cons, ih, hf he]
      · exact ih

end Walk

/-- Nodes that `pred` picks are those of pieces with `q`. -/
def PicksOnly (text : String) (p : ParseTree) (pred : NodeId → Bool) (q : Doc → Bool) : Prop :=
  ∀ ⦃i lead offset d⦄, Shows text p i lead offset d → pred i = true → q d = true

def SyntaxTree.picked (t : SyntaxTree) (pred : NodeId → Bool) (i : NodeId) : List NodeId :=
  (t.descendants i).filter pred

section Picked

variable {pred : NodeId → Bool} {q : Doc → Bool}

theorem SyntaxTree.Linked.picked_eq {t : SyntaxTree} (h : t.Linked) (pred : NodeId → Bool) (i : NodeId) :
    t.picked pred i = (if pred i then [i] else []) ++ (t.children i).flatMap (t.picked pred) := by
  rw [picked, h.descendants_eq, List.filter_cons, List.filter_flatMap]
  cases pred i <;> rfl

theorem PicksOnly.eq_false (hp : PicksOnly text p pred q) (hs : Shows text p i lead offset d) (hq : q d = false) :
    pred i = false :=
  Bool.eq_false_iff.mpr fun hpred => absurd (hp hs hpred) (by simp [hq])

/-- Nothing but what is below is picked at a piece without `q`. -/
theorem PicksOnly.picked_children (hp : PicksOnly text p pred q) (hs : Shows text p i lead offset d)
    (hq : q d = false) :
    (ofParse text p).picked pred i = ((ofParse text p).children i).flatMap ((ofParse text p).picked pred) := by
  rw [(SyntaxTree.ofParse_linked text p).picked_eq, hp.eq_false hs hq]
  rfl

theorem Shows.picked_leaf (hs : Shows text p i lead offset d) (hparts : d.parts = []) (pred : NodeId → Bool) :
    (ofParse text p).picked pred i = if pred i then [i] else [] := by
  rw [(SyntaxTree.ofParse_linked text p).picked_eq, hs.children_nil hparts, List.flatMap_nil, List.append_nil]

theorem ShowsRow.picked_leaves (h : ShowsRow text p offset ds cs) (hparts : ∀ d ∈ ds, d.parts = [])
    (pred : NodeId → Bool) : cs.flatMap ((ofParse text p).picked pred) = cs.filter pred := by
  induction h with
  | nil => rfl
  | cons head tail ih =>
      obtain ⟨hd, hds⟩ := List.forall_mem_cons.mp hparts
      rw [List.flatMap_cons, head.picked_leaf hd, ih hds, List.filter_cons]
      split <;> rfl

mutual

theorem PicksOnly.picked_nil (hp : PicksOnly text p pred q) (d : Doc) {i lead offset : Nat}
    (hs : Shows text p i lead offset d) (hq : d.has q = false) : (ofParse text p).picked pred i = [] := by
  rw [Doc.has_eq, Bool.or_eq_false_iff] at hq
  rw [hp.picked_children hs hq.1]
  obtain ⟨gap, kind, field, word, parts⟩ := d
  cases parts with
  | nil =>
      rw [hs.children_nil rfl]
      rfl
  | cons e es =>
      obtain ⟨he, hes⟩ := Bool.or_eq_false_iff.mp hq.2
      obtain ⟨c, cs, hchildren, hc, hcs⟩ := hs.children_cons rfl
      rw [hchildren, List.flatMap_cons, hp.picked_nil e hc he, hp.picked_row_nil es hcs hes]
      rfl

theorem PicksOnly.picked_row_nil (hp : PicksOnly text p pred q) (ds : List Doc) {offset : Nat} {cs : List NodeId}
    (hrow : ShowsRow text p offset ds cs) (hq : Doc.hasAny q ds = false) :
    cs.flatMap ((ofParse text p).picked pred) = [] := by
  cases ds with
  | nil =>
      cases hrow
      rfl
  | cons d ds =>
      obtain ⟨hd, hds⟩ := Bool.or_eq_false_iff.mp hq
      obtain _ | ⟨hhead, htail⟩ := hrow
      rw [List.flatMap_cons, hp.picked_nil d hhead hd, hp.picked_row_nil ds htail hds]
      rfl

end

end Picked

end Unwire.Syntax
