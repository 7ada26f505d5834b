import Unwire.Proofs.ConstructorArguments
import Unwire.Proofs.LineComments

namespace Unwire

open Syntax

theorem staleNames_subset {wired : List String} {desired desired' : List Dependency}
    (hsub : desired.map (·.name) ⊆ desired'.map (·.name)) : staleNames wired desired' ⊆ staleNames wired desired := by
  intro name hname
  obtain ⟨hwired, hnone⟩ := mem_staleNames.mp hname
  refine mem_staleNames.mpr ⟨hwired, List.any_eq_false.mpr fun d hd hdn => ?_⟩
  obtain ⟨d', hd', he⟩ := List.mem_map.mp (hsub (List.mem_map_of_mem hd))
  exact List.any_eq_false.mp hnone d' hd' (by simpa [he] using hdn)

namespace Removal

variable {t : SyntaxTree} {removed removed' : NodeId → Bool} {setup c d e l n : Nat} {stale more : List String}
  {policy : SeparatorPolicy}

def Erases (t : SyntaxTree) (removals : List Removal) (l : NodeId) : Prop :=
  t.IsToken l ∧ ∀ b < (t.node l).stop, (t.node l).start ≤ b → isTaken removals b = true

theorem isTaken_plan_iff {b : Nat} :
    isTaken (plan t setup stale policy) b = true ↔ ∃ n ∈ removedNodes t setup stale,
      (spanOf t policy (isRemoved t setup stale) n).start ≤ b ∧
        b < (spanOf t policy (isRemoved t setup stale) n).stop := by
  rw [isTaken_eq_any_span, plan_spans, List.any_map, List.any_eq_true]
  simp

theorem Erases.exists_touches (hl : Erases t (plan t setup stale policy) l) :
    ∃ n ∈ removedNodes t setup stale, (spanOf t policy (isRemoved t setup stale) n).touches (t.node l) = true := by
  have hpos := hl.1.nonempty
  obtain ⟨n, hn, hstart, hstop⟩ := isTaken_plan_iff.mp (hl.2 _ hpos (Nat.le_refl _))
  refine ⟨n, hn, Span.touches_iff.mpr ?_⟩
  omega

theorem erases_of_covers (hl : t.IsToken l) (hn : n ∈ removedNodes t setup stale)
    (hcover : (spanOf t policy (isRemoved t setup stale) n).covers (t.node l) = true) :
    Erases t (plan t setup stale policy) l := by
  rw [Span.covers_iff] at hcover
  refine ⟨hl, fun b hstop hstart => isTaken_plan_iff.mpr ⟨n, hn, ?_⟩⟩
  omega

theorem closes_mono {siblings : List NodeId} (hmono : ∀ e ∈ siblings, removed e = true → removed' e = true)
    (hclose : closes t removed siblings = true) : closes t removed' siblings = true := by
  fun_induction closes t removed siblings with
  | case1 c e rest hcomma ih =>
      simp only [Bool.and_eq_true] at hclose
      obtain ⟨⟨hopen, he⟩, hrest⟩ := hclose
      have hrest' := ih (fun x hx => hmono x (by simp [hx])) hrest
      simp [closes, hcomma, hopen, hmono e (by simp) he, hrest']
  | case2 c e rest hcomma => simp [closes, hcomma]
  | case3 c => simpa [closes] using hclose
  | case4 => rfl

theorem IsStaleStatement.mono (hsub : stale ⊆ more) (hd : IsStaleStatement t setup stale d) :
    IsStaleStatement t setup more d := by
  obtain ⟨body, hbody, hmem, hk, name, hname, hs⟩ := hd
  exact ⟨body, hbody, hmem, hk, name, hname, hsub hs⟩

section

variable (h : t.Orderly)
include h

/-- With more stale names, a node goes away as before, or with a statement that holds its parent. -/
theorem removed_cases (hsub : stale ⊆ more) (hn : n ∈ removedNodes t setup stale) :
    n ∈ removedNodes t setup more ∨
      ∃ d ∈ removedNodes t setup more, ∃ p, (t.node n).parent = some p ∧ t.Below d p := by
  rcases (mem_removedNodes h.toLinked).mp hn with hn | hn
  · exact Or.inl ((mem_removedNodes h.toLinked).mpr (Or.inl (hn.mono hsub)))
  by_cases hd : ∃ d, IsStaleStatement t setup more d ∧ t.Below d n
  · obtain ⟨d, hd, hdn⟩ := hd
    refine Or.inr ⟨d, (mem_removedNodes h.toLinked).mpr (Or.inl hd), ?_⟩
    refine (h.below_iff_parent.mp hdn).resolve_left ?_
    rintro rfl
    exact absurd hn.name (by simp [hd.kind])
  · refine Or.inl ((mem_removedNodes h.toLinked).mpr (Or.inr ?_))
    exact ⟨hn.below, hn.name, hsub hn.mem_stale, hn.not_declared, fun d hds hdn => hd ⟨d, hds, hdn⟩⟩

theorem exists_removed_above_of_subset (hsub : stale ⊆ more) (hn : n ∈ removedNodes t setup stale)
    (hb : t.Below n l) : ∃ m ∈ removedNodes t setup more, t.Below m l := by
  rcases removed_cases h hsub hn with hn | ⟨d, hd, p, hp, hdp⟩
  · exact ⟨n, hn, hb⟩
  · exact ⟨d, hd, (SyntaxTree.Below.child hdp (h.mem_of_parent hp)).trans hb⟩

variable (hwf : t.Named)
include hwf

theorem following_removed (hsub : stale ⊆ more) (hn : n ∈ removedNodes t setup more) (he : e ∈ t.following n)
    (hrem : isRemoved t setup stale e = true) : isRemoved t setup more e = true := by
  have hnt := (isTarget_of_mem h hwf hn).isItem.not_trivia
  obtain ⟨p, hp⟩ : ∃ p, (t.node n).parent = some p := by
    cases hp : (t.node n).parent with
    | none => simp [SyntaxTree.following, hp] at he
    | some p => exact ⟨p, rfl⟩
  have hep : e ∈ t.children p := (h.sublist_of_mem_following hp hnt he).subset (by simp)
  rcases removed_cases h hsub (List.contains_iff_mem.mp hrem) with he | ⟨d, hd, q, hq, hdq⟩
  · exact List.contains_iff_mem.mpr he
  · obtain rfl := Option.some.inj ((h.parent_of_mem hep).symm.trans hq)
    have hpn := h.mem_of_parent hp
    obtain rfl := eq_of_below h hwf hd hn (.child hdq hpn)
    exact absurd (h.le_of_below hdq) (Nat.not_le.mpr (h.lt_of_mem hpn))

theorem takes_next (hc : isComma t c = true) (hnext : t.next? n = some c) (hn : t.isTrivia n = false)
    (hclose : Closes t (isRemoved t setup stale) n) :
    ∃ e ∈ removedNodes t setup stale, Takes t (isRemoved t setup stale) e c := by
  obtain ⟨hlist, hclose⟩ := hclose
  have hct := isTrivia_of_isComma hc
  rw [h.following_of_next hn hnext] at hclose
  cases hrest : t.following c with
  | nil => simp [hrest, closes, hc] at hclose
  | cons e rest =>
      simp only [hrest, closes, hc, if_true, Bool.and_eq_true] at hclose
      obtain ⟨⟨_, he⟩, hclose⟩ := hclose
      have hmem : e ∈ removedNodes t setup stale := List.contains_iff_mem.mp he
      have het := (isTarget_of_mem h hwf hmem).isItem.not_trivia
      have hce : t.next? c = some e := by rw [SyntaxTree.next?, hrest]; rfl
      have hprev := (h.next_iff_previous hct het).mp hce
      have hfollow := h.following_of_next hct hce
      rw [hrest] at hfollow
      obtain ⟨_, rfl⟩ := List.cons.inj hfollow
      refine ⟨e, hmem, hc, Or.inl ⟨⟨?_, hclose⟩, hprev⟩⟩
      -- All three have one parent.
      obtain ⟨p, hp⟩ := SyntaxTree.parent_of_next hnext
      have hcp := h.parent_of_mem (SyntaxTree.mem_significantChildren.mp (h.mem_of_next hp hn hnext)).1
      have hep := h.parent_of_mem (SyntaxTree.mem_significantChildren.mp (h.mem_of_next hcp hct hce)).1
      simp only [isListElement, hp] at hlist
      simp [isListElement, hep, hlist]

/-- With more stale names, a comma that goes away still does, with a node next to it or with a statement around it. -/
theorem Takes.mono (hsub : stale ⊆ more) (hn : n ∈ removedNodes t setup stale)
    (hc : Takes t (isRemoved t setup stale) n c) :
    ∃ m ∈ removedNodes t setup more, t.Below m c ∨ Takes t (isRemoved t setup more) m c := by
  have hnt := (isTarget_of_mem h hwf hn).isItem.not_trivia
  rcases removed_cases h hsub hn with hn' | ⟨d, hd, p, hp, hdp⟩
  · by_cases hclose : Closes t (isRemoved t setup more) n
    · obtain ⟨hcomma, ⟨_, hprev⟩ | ⟨_, hnext⟩⟩ := hc
      · exact ⟨n, hn', Or.inr ⟨hcomma, Or.inl ⟨hclose, hprev⟩⟩⟩
      · obtain ⟨e, he, htakes⟩ := takes_next h hwf hcomma hnext hnt hclose
        exact ⟨e, he, Or.inr htakes⟩
    · obtain ⟨hcomma, ⟨hclosed, _⟩ | ⟨_, hnext⟩⟩ := hc
      · refine absurd ⟨hclosed.1, closes_mono (fun e he => ?_) hclosed.2⟩ hclose
        exact following_removed h hwf hsub hn' he
      · exact ⟨n, hn', Or.inr ⟨hcomma, Or.inr ⟨hclose, hnext⟩⟩⟩
  · obtain ⟨q, hq, hcq⟩ := hc.exists_parent h.toLinked hnt
    obtain rfl := Option.some.inj (hp.symm.trans hq)
    exact ⟨d, hd, Or.inl (.child hdp (SyntaxTree.mem_significantChildren.mp hcq).1)⟩

theorem listAware_covered (hsub : stale ⊆ more) (hl : t.IsToken l) (hn : n ∈ removedNodes t setup stale)
    (htouch : (listAwareSpan t (isRemoved t setup stale) n).touches (t.node l) = true) :
    ∃ m ∈ removedNodes t setup more, (listAwareSpan t (isRemoved t setup more) m).covers (t.node l) = true := by
  have hmore : ∀ m ∈ removedNodes t setup more, t.isTrivia m = false := fun m hm =>
    (isTarget_of_mem h hwf hm).isItem.not_trivia
  have hnt := isTarget_of_mem h hwf hn
  have habove : t.Below n l → ∃ m ∈ removedNodes t setup more,
      (listAwareSpan t (isRemoved t setup more) m).covers (t.node l) = true := by
    intro hb
    obtain ⟨m, hm, hml⟩ := exists_removed_above_of_subset h hsub hn hb
    exact ⟨m, hm, covers_of_below h (listAwareSpan_covers h _ (hmore m hm)) hml⟩
  rcases cases_of_touches h hnt.isItem.not_trivia hl.not_trivia hnt.lt_size hl.lt_size (outsideCommas_of_named hwf n l)
    htouch with hb | hb | htakes
  · exact habove hb
  · exact habove (SyntaxTree.eq_of_below_leaf hl.leaf hb ▸ .self)
  · obtain ⟨m, hm, hb | htakes⟩ := htakes.mono h hwf hsub hn
    · exact ⟨m, hm, covers_of_below h (listAwareSpan_covers h _ (hmore m hm)) hb⟩
    · exact ⟨m, hm, htakes.covers h (hmore m hm)⟩

theorem nextCharSpan_touches (hcommas : t.CommaTokens) (hl : t.IsToken l) (hn : IsTarget t n)
    (htouch : (nextCharSpan t n).touches (t.node l) = true) :
    t.Below n l ∨ Text.charAt? (t.node n).stop t.text = some ',' ∧ (t.node l).start = (t.node n).stop ∧
      (t.node l).stop = (t.node n).stop + 1 := by
  rw [nextCharSpan_eq, Span.touches_iff] at htouch
  dsimp only at htouch
  rcases below_or_stop_le h hn.lt_size hl.lt_size hl.leaf hl.not_trivia htouch.1.1 with hb | hle
  · exact Or.inl hb
  by_cases hchar : Text.charAt? (t.node n).stop t.text = some ','
  · obtain ⟨c, hcs, hck, hstart, hstop⟩ := hcommas n hn.kind hchar
    rw [if_pos hchar] at htouch
    obtain rfl := h.eq_of_leaves hcs hl.lt_size (hwf.comma_leaf hck) hl.leaf (by omega) (by omega)
    exact Or.inr ⟨hchar, hstart, hstop⟩
  · rw [if_neg hchar] at htouch
    omega

theorem nextChar_covered (hcommas : t.CommaTokens) (hsub : stale ⊆ more) (hl : t.IsToken l)
    (hn : n ∈ removedNodes t setup stale) (htouch : (nextCharSpan t n).touches (t.node l) = true) :
    ∃ m ∈ removedNodes t setup more, (nextCharSpan t m).covers (t.node l) = true := by
  rcases nextCharSpan_touches h hwf hcommas hl (isTarget_of_mem h hwf hn) htouch with hb | ⟨hchar, hstart, hstop⟩
  · obtain ⟨m, hm, hml⟩ := exists_removed_above_of_subset h hsub hn hb
    have hcover := spanOf_covers .nextChar (isRemoved t setup more) h (isTarget_of_mem h hwf hm).isItem.not_trivia
    exact ⟨m, hm, covers_of_below h hcover hml⟩
  · obtain ⟨m, hm, hmn⟩ := exists_removed_above_of_subset h hsub hn .self
    have hrange := h.range_of_below hmn
    have hlead := h.fullStart_le_start m
    have hself := h.start_le_stop n
    refine ⟨m, hm, ?_⟩
    rw [nextCharSpan_eq, Span.covers_iff]
    dsimp only
    -- The comma is in the node around, or right after it too.
    by_cases hend : (t.node n).stop = (t.node m).stop
    · rw [← hend, if_pos hchar]
      omega
    · split <;> omega

theorem Erases.mono (hcommas : t.CommaTokens) (policy : SeparatorPolicy) (hsub : stale ⊆ more)
    (hl : Erases t (plan t setup stale policy) l) : Erases t (plan t setup more policy) l := by
  obtain ⟨n, hn, htouch⟩ := hl.exists_touches
  have hcovered : ∃ m ∈ removedNodes t setup more,
      (spanOf t policy (isRemoved t setup more) m).covers (t.node l) = true := by
    cases policy with
    | listAware => exact listAware_covered h hwf hsub hl.1 hn htouch
    | nextChar => exact nextChar_covered h hwf hcommas hsub hl.1 hn htouch
  obtain ⟨m, hm, hcover⟩ := hcovered
  exact erases_of_covers hl.1 hm hcover

end

/-- Every token that goes away with some stale names goes away with more of them. So to desire more names removes no
further token, and which tokens go away depends on the set of desired names only. -/
theorem erased_tokens_grow (text : String) (p : Parse.ParseTree) (hwf : (SyntaxTree.ofParse text p).Named)
    (hcommas : (SyntaxTree.ofParse text p).CommaTokens) (setup : NodeId) (policy : SeparatorPolicy) :
    let t := SyntaxTree.ofParse text p
    let erases (stale : List String) (l : NodeId) : Prop := Erases t (plan t setup stale policy) l
    (∀ stale more, stale ⊆ more → ∀ l, erases stale l → erases more l) ∧
    (∀ wired (desired desired' : List Dependency), desired.map (·.name) ⊆ desired'.map (·.name) →
      ∀ l, erases (staleNames wired desired') l → erases (staleNames wired desired) l) ∧
    ∀ wired (desired desired' : List Dependency),
      (∀ name, name ∈ desired.map (·.name) ↔ name ∈ desired'.map (·.name)) →
      ∀ l, erases (staleNames wired desired) l ↔ erases (staleNames wired desired') l := by
  intro t erases
  have h : t.Orderly := hwf.toNested.orderly
  have hgrow : ∀ stale more, stale ⊆ more → ∀ l, erases stale l → erases more l :=
    fun stale more hsub l hl => hl.mono h hwf hcommas policy hsub
  refine ⟨hgrow, fun wired desired desired' hsub => hgrow _ _ (staleNames_subset hsub), ?_⟩
  intro wired desired desired' hsame l
  constructor
  · exact hgrow _ _ (staleNames_subset fun name => (hsame name).mpr) l
  · exact hgrow _ _ (staleNames_subset fun name => (hsame name).mp) l

theorem setup_comma_stays_erased :
    let t := SyntaxTree.ofParse setupText setupTree
    let spans (stale : List String) := (plan t 1 stale .listAware).map (·.span)
    t.Named ∧ t.CommaTokens ∧ spans (staleNames ["a", "d", "b"] [⟨"d", none⟩]) = [⟨14, 25⟩, ⟨43, 45⟩, ⟨56, 59⟩] ∧
      spans (staleNames ["a", "d", "b"] []) = [⟨14, 25⟩, ⟨43, 44⟩, ⟨44, 47⟩, ⟨56, 59⟩] ∧
      Erases t (plan t 1 (staleNames ["a", "d", "b"] [⟨"d", none⟩]) .listAware) 31 ∧
      Erases t (plan t 1 (staleNames ["a", "d", "b"] []) .listAware) 31 := by
  intro t spans
  have hwf : t.Named := by decide +kernel
  have hcommas : t.CommaTokens := by decide +kernel
  have htoken : t.IsToken 31 := ⟨by decide +kernel, by decide +kernel, by decide +kernel, by decide +kernel⟩
  have herased : Erases t (plan t 1 (staleNames ["a", "d", "b"] [⟨"d", none⟩]) .listAware) 31 :=
    erases_of_covers (n := 30) htoken (by decide +kernel) (by decide +kernel)
  have hspans : ∀ stale, spans stale = (removedNodes t 1 stale).map (spanOf t .listAware (isRemoved t 1 stale)) :=
    fun stale => plan_spans t 1 stale .listAware
  refine ⟨hwf, hcommas, ?_, ?_, herased, ?_⟩
  · rw [hspans]
    decide +kernel
  · rw [hspans]
    decide +kernel
  · exact (erased_tokens_grow setupText setupTree hwf hcommas 1 .listAware).2.1 ["a", "d", "b"] [] [⟨"d", none⟩]
      (by simp) 31 herased

end Removal

end Unwire
