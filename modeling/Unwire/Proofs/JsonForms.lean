import Unwire.Json.Forms
import Unwire.Proofs.JsonText

namespace Unwire

namespace Json

namespace Decoder

variable {σ α : Type} {member : String → σ → Decoder σ} {s s' : σ} {members : List (String × Json)}

/-- A decoder reads a written value, whatever comes after it. -/
def ReadsAs (decoder : Decoder α) (value : Json) (a : α) : Prop :=
  ∀ rest, EndsNumber rest → decoder (value.compact ++ rest) = some (a, rest)

/-- Members that are taken in one after the other. -/
inductive TakesIn (member : String → σ → Decoder σ) : σ → List (String × Json) → σ → Prop
  | nil (s : σ) : TakesIn member s [] s
  | cons {s s' s'' : σ} {key : String} {value : Json} {members : List (String × Json)}
      (first : ReadsAs (member key s) value s') (others : TakesIn member s' members s'') :
      TakesIn member s ((key, value) :: members) s''

theorem endsNumber_comma (rest : List Char) : EndsNumber (',' :: rest) := by
  rintro _ ⟨⟩
  decide

theorem endsNumber_close (rest : List Char) : EndsNumber ('\x7d' :: rest) := by
  rintro _ ⟨⟩
  decide

variable {key : String} {value : Json}

theorem readMembers_comma (h : ReadsAs (member key s) value s') (fuel : Nat) (rest : List Char) :
    readMembers member (fuel + 1) s (writeString key ++ ':' :: (value.compact ++ ',' :: rest)) =
      readMembers member fuel s' rest := by
  rw [readMembers]
  simp only [string_written, expect_cons (c := ':') (by decide), h _ (endsNumber_comma rest),
    skipBlanks_cons (c := ',') (by decide), bind, Option.bind]

theorem readMembers_close (h : ReadsAs (member key s) value s') (fuel : Nat) (rest : List Char) :
    readMembers member (fuel + 1) s (writeString key ++ ':' :: (value.compact ++ '\x7d' :: rest)) =
      some (s', rest) := by
  rw [readMembers]
  simp only [string_written, expect_cons (c := ':') (by decide), h _ (endsNumber_close rest),
    skipBlanks_cons (c := '\x7d') (by decide), bind, Option.bind]

theorem readMembers_written (h : TakesIn member s members s') (hne : members ≠ []) {fuel : Nat}
    (hfuel : members.length ≤ fuel) (rest : List Char) :
    readMembers member fuel s (compactMembers members ++ rest) = some (s', rest) := by
  induction h generalizing fuel with
  | nil s => exact absurd rfl hne
  | @cons s s' s'' key value members first others ih =>
      obtain ⟨fuel, rfl⟩ := Nat.exists_eq_add_one.mpr (Nat.lt_of_lt_of_le (Nat.succ_pos _) hfuel)
      cases others with
      | nil => simpa [compactMembers] using readMembers_close first fuel rest
      | @cons _ _ _ key' value' members first' others =>
          have hrest := ih (by simp) (Nat.le_of_succ_le_succ hfuel)
          have hfirst := readMembers_comma first fuel (compactMembers ((key', value') :: members) ++ rest)
          simpa [compactMembers, hrest] using hfirst

theorem length_compactMembers (members : List (String × Json)) : members.length ≤ (compactMembers members).length := by
  induction members with
  | nil => exact Nat.zero_le _
  | cons m members ih =>
      cases members with
      | nil =>
          simp only [compactMembers, List.length_append, List.length_cons]
          omega
      | cons m' members =>
          simp only [compactMembers, List.length_append, List.length_cons] at ih ⊢
          omega

theorem expect_close_written (key : String) (value : Json) (members : List (String × Json)) (rest : List Char) :
    expect '\x7d' (compactMembers ((key, value) :: members) ++ rest) = none := by
  cases members <;> exact expect_cons_of_ne (by decide) (by decide) _

theorem members_written (h : TakesIn member s members s') (rest : List Char) :
    Decoder.members member s ((Json.object members).compact ++ rest) = some (s', rest) := by
  rw [compact, List.cons_append, Decoder.members, expect_cons (by decide)]
  cases h with
  | nil => rfl
  | @cons _ _ _ key value members first others =>
      -- A member is at least a character long, so the length of the text is fuel enough.
      have hread := readMembers_written (.cons first others) (List.cons_ne_nil _ _)
        (Nat.le_trans (length_compactMembers _) (List.length_append ▸ Nat.le_add_right _ rest.length)) rest
      simp only [bind, Option.bind, expect_close_written]
      exact hread

theorem members_invariant {P : σ → Prop}
    (hmember : ∀ key s cs s' rest, P s → member key s cs = some (s', rest) → P s') {cs rest : List Char} (hs : P s)
    (h : Decoder.members member s cs = some (s', rest)) : P s' := by
  have hread (fuel : Nat) (s : σ) (cs : List Char) (hs : P s)
      (h : readMembers member fuel s cs = some (s', rest)) : P s' := by
    induction fuel generalizing s cs with
    | zero => cases h
    | succ fuel ih =>
        simp only [readMembers, bind, Option.bind_eq_some_iff, Prod.exists] at h
        obtain ⟨key, cs, -, cs', -, s'', cs'', htaken, hnext⟩ := h
        have hs'' := hmember _ _ _ _ _ hs htaken
        split at hnext
        · exact ih s'' _ hs'' hnext
        · obtain ⟨rfl, -⟩ := Prod.mk.inj (Option.some.inj hnext)
          exact hs''
        · cases hnext
  simp only [Decoder.members, bind, Option.bind_eq_some_iff] at h
  obtain ⟨cs', -, h⟩ := h
  split at h
  · obtain ⟨rfl, -⟩ := Prod.mk.inj (Option.some.inj h)
    exact hs
  · exact hread _ s cs' hs h

theorem string_readsAs (text : String) : ReadsAs string (.string text) text := by
  intro rest _
  rw [compact, string_written]

theorem once_readsAs {decoder : Decoder α} {a : α} (h : ReadsAs decoder value a) (fill : Option α → σ) :
    ReadsAs (fun cs => (once decoder none cs).map fun (v, rest) => (fill v, rest)) value (fill (some a)) := by
  intro rest hrest
  simp only [once, h rest hrest]
  rfl

theorem orElse_readsAs {decoder : Decoder α} {a : α} (h : ReadsAs decoder value a) (other : Decoder α) :
    ReadsAs (fun cs => decoder cs <|> other cs) value a := by
  intro rest hrest
  simp only [h rest hrest]
  rfl

theorem object_readsAs (finish : σ → Option α) {a : α} (h : TakesIn member s members s')
    (hfinish : finish s' = some a) :
    ReadsAs (fun cs => do
      let (d, rest) ← Decoder.members member s cs
      return (← finish d, rest)) (.object members) a := by
  intro rest _
  simp only [members_written h, bind, Option.bind, hfinish]
  rfl

theorem cases_of_orElse {a : α} {first second : Option α} (h : (first <|> second) = some a) :
    first = some a ∨ second = some a := by
  cases first with
  | none => exact Or.inr h
  | some b => exact Or.inl h

theorem decode?_toLine {decoder : Decoder α} {a : α} (h : ReadsAs decoder value a) :
    decode? decoder value.toLine = some a := by
  have hread := h [] (by rintro _ ⟨⟩)
  rw [List.append_nil] at hread
  rw [decode?, toLine, String.toList_ofList, hread]
  rfl

/-- Values that are encoded as JSON and decoded again. Those that JSON can hold come back, and all that are decoded are
among these. -/
structure RoundTrips (toJson : α → Json) (decoder : Decoder α) (holds : α → Prop) : Prop where
  decode_encode : ∀ a, holds a → decode? decoder (toJson a).toLine = some a
  reencode : ∀ text a, decode? decoder text = some a →
    decode? decoder (toJson a).toLine = some a ∧
      (decode? decoder (toJson a).toLine).map (fun b => (toJson b).toLine) = some (toJson a).toLine

theorem RoundTrips.of_readsAs {toJson : α → Json} {decoder : Decoder α} {holds : α → Prop}
    (hread : ∀ a, holds a → ReadsAs decoder (toJson a) a)
    (hholds : ∀ cs a rest, decoder cs = some (a, rest) → holds a) : RoundTrips toJson decoder holds := by
  have hdecode (a : α) (ha : holds a) := decode?_toLine (hread a ha)
  refine ⟨hdecode, fun text a h => ?_⟩
  simp only [decode?, bind, Option.bind_eq_some_iff, Prod.exists] at h
  obtain ⟨b, rest, hb, h⟩ := h
  split at h
  · obtain rfl := Option.some.inj h
    have ha := hdecode b (hholds _ _ _ hb)
    exact ⟨ha, by rw [ha]; rfl⟩
  · cases h

end Decoder

end Json

open Json (Decoder)
open Json.Decoder

namespace Edit

theorem decoder_readsAs (e : Edit) (h : e.start < UInt64.size) : ReadsAs decoder e.toJson e := by
  have hnumber : ReadsAs start64 (.number e.start) e.start := by
    intro rest hrest
    rw [start64, Json.compact, natural_written h hrest]
  have hpath : ReadsAs (Draft.member "path" {}) (.string e.path) ⟨some e.path, none, none⟩ :=
    once_readsAs (string_readsAs e.path) (Draft.mk · none none)
  have hstart : ReadsAs (Draft.member "start" ⟨some e.path, none, none⟩) (.number e.start)
      ⟨some e.path, some e.start, none⟩ := once_readsAs hnumber (Draft.mk _ · none)
  have htext : ReadsAs (Draft.member "text" ⟨some e.path, some e.start, none⟩) (.string e.text)
      ⟨some e.path, some e.start, some e.text⟩ := once_readsAs (string_readsAs e.text) (Draft.mk _ _)
  exact orElse_readsAs (object_readsAs Draft.finish (.cons hpath (.cons hstart (.cons htext (.nil _)))) rfl) ofArray

theorem start64_lt {n : Nat} {cs rest : List Char} (h : start64 cs = some (n, rest)) : n < UInt64.size := by
  rw [start64] at h
  exact lt_of_natural h

theorem Draft.member_start {key : String} {d d' : Draft} {cs rest : List Char}
    (hd : ∀ n ∈ d.start, n < UInt64.size) (h : Draft.member key d cs = some (d', rest)) :
    ∀ n ∈ d'.start, n < UInt64.size := by
  unfold Draft.member at h
  split at h
  all_goals obtain ⟨⟨v, rest'⟩, hv, heq⟩ := Option.map_eq_some_iff.mp h
  all_goals obtain ⟨rfl, rfl⟩ := Prod.mk.inj heq
  · exact hd
  · unfold once at hv
    split at hv
    · cases hv
    · obtain ⟨⟨n, rest⟩, hn, heq⟩ := Option.map_eq_some_iff.mp hv
      obtain ⟨rfl, rfl⟩ := Prod.mk.inj heq
      rintro _ ⟨⟩
      exact start64_lt hn
  · exact hd
  · exact hd

theorem Draft.finish_start {d : Draft} {e : Edit} (h : d.finish = some e) : d.start = some e.start := by
  simp only [finish, bind, Option.bind_eq_some_iff] at h
  obtain ⟨path, -, start, hstart, text, -, h⟩ := h
  rw [hstart, ← Option.some.inj h]

theorem start_lt_of_decoder (cs : List Char) (e : Edit) (rest : List Char) (h : decoder cs = some (e, rest)) :
    e.start < UInt64.size := by
  rcases cases_of_orElse h with h | h
  · simp only [ofObject, bind, Option.bind_eq_some_iff, Prod.exists] at h
    obtain ⟨d, rest', hmembers, e', hfinish, h⟩ := h
    obtain ⟨rfl, -⟩ := Prod.mk.inj (Option.some.inj h)
    have hstart : ∀ n ∈ d.start, n < UInt64.size :=
      members_invariant (fun _ _ _ _ _ hd hmember => Draft.member_start hd hmember) (fun n hn => by cases hn) hmembers
    exact hstart _ (Draft.finish_start hfinish)
  · simp only [ofArray, bind, Option.bind_eq_some_iff, Prod.exists] at h
    obtain ⟨_, _, path, _, _, _, _, start, _, hstart, _, _, text, _, _, _, _, h⟩ := h
    obtain ⟨rfl, -⟩ := Prod.mk.inj (Option.some.inj h)
    exact start64_lt hstart

end Edit

namespace Dependency

theorem decoder_readsAs (d : Dependency) : ReadsAs decoder d.toJson d := by
  have hname : ReadsAs (Draft.member "name" {}) (.string d.name) ⟨some d.name, none⟩ :=
    once_readsAs (string_readsAs d.name) (Draft.mk · none)
  obtain ⟨name, typeName⟩ := d
  cases typeName with
  | none => exact orElse_readsAs (object_readsAs Draft.finish (.cons hname (.nil _)) rfl) ofArray
  | some type =>
      have hoptional : ReadsAs (optional string) (.string type) (some type) := by
        intro rest hrest
        rw [Json.Decoder.optional, string_readsAs type rest hrest]
        rfl
      have htype : ReadsAs (Draft.member "type_name" ⟨some name, none⟩) (.string type)
          ⟨some name, some (some type)⟩ := once_readsAs hoptional (Draft.mk _)
      exact orElse_readsAs (object_readsAs Draft.finish (.cons hname (.cons htype (.nil _))) rfl) ofArray

end Dependency

namespace SeparatorPolicy

theorem ofName?_name (p : SeparatorPolicy) : ofName? p.name = some p := by
  cases p <;> rfl

theorem decoder_readsAs (p : SeparatorPolicy) : ReadsAs decoder p.toJson p := by
  have hstring : ReadsAs ofString p.toJson p := by
    intro rest hrest
    rw [ofString, toJson, string_readsAs p.name rest hrest]
    simp [ofName?_name]
  exact orElse_readsAs hstring ofObject

end SeparatorPolicy

namespace Config

theorem decoder_readsAs (c : Config) : ReadsAs decoder c.toJson c := by
  have hstart : ReadsAs (Draft.member "setup_prefix" {}) (.string c.setupPrefix) ⟨some c.setupPrefix, none⟩ :=
    once_readsAs (string_readsAs c.setupPrefix) (Draft.mk · none)
  have hseparators : ReadsAs (Draft.member "separator_policy" ⟨some c.setupPrefix, none⟩) c.separators.toJson
      ⟨some c.setupPrefix, some c.separators⟩ := once_readsAs c.separators.decoder_readsAs (Draft.mk _)
  exact orElse_readsAs (object_readsAs Draft.finish (.cons hstart (.cons hseparators (.nil _))) rfl) ofArray

end Config

/-- Every kind of value that is written as JSON is read back. -/
theorem decoding_undoes_encoding :
    RoundTrips Edit.toJson Edit.decoder (·.start < UInt64.size) ∧
    RoundTrips Dependency.toJson Dependency.decoder (fun _ => True) ∧
    RoundTrips Config.toJson Config.decoder (fun _ => True) ∧
    RoundTrips SeparatorPolicy.toJson SeparatorPolicy.decoder (fun _ => True) :=
  ⟨.of_readsAs Edit.decoder_readsAs Edit.start_lt_of_decoder,
    .of_readsAs (fun d _ => d.decoder_readsAs) (fun _ _ _ _ => trivial),
    .of_readsAs (fun c _ => c.decoder_readsAs) (fun _ _ _ _ => trivial),
    .of_readsAs (fun p _ => p.decoder_readsAs) (fun _ _ _ _ => trivial)⟩

theorem last_offset_round_trips :
    let e : Edit := ⟨"a\"\\\t\u0001\u007f.ts", 18446744073709551615, "é😀"⟩
    decode? Edit.decoder e.toJson.toLine = some e :=
  decoding_undoes_encoding.1.decode_encode _ (by decide)

end Unwire
