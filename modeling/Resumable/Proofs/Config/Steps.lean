import Mathlib.Data.List.TakeDrop
import Resumable.Toml.Document

namespace Resumable

namespace Toml

variable {t r : List Char} {f d : Nat} {name : String} {names : List String}
  {v : Toml} {l : List Toml} {e e' : TomlEntries}

variable {p : Char → Bool} {word : List Char}

theorem span_append (hword : ∀ c ∈ word, p c = true)
    (hr : ∀ c, r.head? = some c → p c = false) :
    (word ++ r).span p = (word, r) := by
  rw [List.span_eq_takeWhile_dropWhile, List.takeWhile_append_of_pos hword,
    List.dropWhile_append_of_pos hword]
  cases r with
  | nil => simp
  | cons c rest => simp [hr c rfl]

theorem span_eq (h : t.span p = (word, r)) :
    t = word ++ r ∧ (∀ c ∈ word, p c = true) ∧ ∀ c, r.head? = some c → p c = false := by
  rw [List.span_eq_takeWhile_dropWhile] at h
  obtain ⟨rfl, rfl⟩ := Prod.mk.inj h
  refine ⟨List.takeWhile_append_dropWhile.symm,
    fun c hc => List.all_eq_true.mp List.all_takeWhile c hc, ?_⟩
  intro c hc
  have hstop := List.head?_dropWhile_not p t
  rw [hc] at hstop
  simpa using hstop

theorem ne_nil_of_scalar (h : scalar? t = some v) : t ≠ [] := by
  rintro rfl
  cases h

theorem bare_time {time more : List Char} {c : Char}
    (h : t.span (!endsScalar ·) = (word, ' ' :: c :: more))
    (hdate : date? word = some []) (hc : c.isDigit = true)
    (htime : (c :: more).span (!endsScalar ·) = (time, r)) :
    bare? t = (scalar? (word ++ ' ' :: time)).map fun v => (v, r) := by
  rw [bare?, h]
  simp only [hdate, hc, htime, if_true]
  cases scalar? (word ++ ' ' :: time) <;> rfl

theorem bare_word (h : t.span (!endsScalar ·) = (word, r))
    (hno : date? word = some [] → ∀ c more, r = ' ' :: c :: more → c.isDigit = false) :
    bare? t = (scalar? word).map fun v => (v, r) := by
  rw [bare?, h]
  dsimp only
  split
  · next c more hdate =>
      rw [if_neg (by simp [hno hdate c more rfl])]
      cases scalar? word <;> rfl
  · cases scalar? word <;> rfl

theorem bare_eq_some (h : bare? t = some (v, r)) :
    (∃ word c more time, t.span (!endsScalar ·) = (word, ' ' :: c :: more) ∧
      date? word = some [] ∧ c.isDigit = true ∧
      (c :: more).span (!endsScalar ·) = (time, r) ∧
      scalar? (word ++ ' ' :: time) = some v) ∨
    ∃ word, t.span (!endsScalar ·) = (word, r) ∧
      (date? word = some [] → ∀ c more, r = ' ' :: c :: more → c.isDigit = false) ∧
      scalar? word = some v := by
  obtain ⟨word, rest, hspan⟩ : ∃ word rest, t.span (!endsScalar ·) =
    (word, rest) := ⟨_, _, rfl⟩
  by_cases htimed : date? word = some [] ∧ ∃ c more, rest = ' ' :: c :: more ∧
    c.isDigit = true
  · obtain ⟨hdate, c, more, rfl, hc⟩ := htimed
    left
    rw [bare_time hspan hdate hc rfl] at h
    obtain ⟨_, hscalar, he⟩ := Option.map_eq_some_iff.mp h
    cases he
    exact ⟨word, c, more, _, hspan, hdate, hc, rfl, hscalar⟩
  · have hno : date? word = some [] → ∀ c more, rest = ' ' :: c :: more →
        c.isDigit = false := by
      intro hdate c more hrest
      cases hc : c.isDigit with
      | false => rfl
      | true => exact absurd ⟨hdate, c, more, hrest, hc⟩ htimed
    right
    rw [bare_word hspan hno] at h
    obtain ⟨_, hscalar, he⟩ := Option.map_eq_some_iff.mp h
    cases he
    exact ⟨word, hspan, hno, hscalar⟩

theorem gaps_succ :
    skipGaps? (f + 1) t = some r ↔ ∃ w, skipComment? (skipBlanks t) = some w ∧
    ((∃ n, lineEnd? w = some n ∧ skipGaps? f (w.drop n) = some r) ∨
      lineEnd? w = none ∧ w.head? ≠ some '\r' ∧ r = w) := by
  rw [skipGaps?]
  constructor
  · intro h
    obtain ⟨w, hw, h⟩ := Option.bind_eq_some_iff.mp h
    refine ⟨w, hw, ?_⟩
    split at h
    · next n hn => exact .inl ⟨n, hn, h⟩
    · next hnone =>
        split at h
        · cases h
        · next hreturn =>
            cases h
            exact .inr ⟨hnone, hreturn, rfl⟩
  · rintro ⟨w, hw, ⟨n, hn, h⟩ | ⟨hnone, hreturn, rfl⟩⟩
    · rw [hw]
      simp only [bind, Option.bind_some, hn, h]
    · rw [hw]
      simp only [bind, Option.bind_some, hnone, if_neg hreturn]

theorem simpleKey_bare (h : t.span isBareKey = (word, r)) (hword : word ≠ []) :
    simpleKey? t = some (String.ofList word, r) := by
  obtain ⟨c, rest, rfl⟩ := List.exists_cons_of_ne_nil hword
  obtain ⟨rfl, htaken, -⟩ := span_eq h
  have hc := htaken c (List.mem_cons_self ..)
  unfold simpleKey?
  split
  · next heq =>
      cases heq
      exact absurd hc (by decide)
  · next heq =>
      cases heq
      exact absurd hc (by decide)
  · rw [h]
    rfl

theorem simpleKey_eq_some (h : simpleKey? t = some (name, r)) :
    (∃ rest q, t = '"' :: rest ∧ basic? 0 rest = some (q, r) ∧ name = String.ofList q) ∨
    (∃ rest q, t = '\'' :: rest ∧ literal? rest = some (q, r) ∧
      name = String.ofList q) ∨
    ∃ word, t.span isBareKey = (word, r) ∧ word ≠ [] ∧ name = String.ofList word := by
  unfold simpleKey? at h
  split at h
  · next rest =>
      obtain ⟨⟨q, r'⟩, hq, he⟩ := Option.map_eq_some_iff.mp h
      cases he
      exact .inl ⟨rest, q, rfl, hq, rfl⟩
  · next rest =>
      obtain ⟨⟨q, r'⟩, hq, he⟩ := Option.map_eq_some_iff.mp h
      cases he
      exact .inr (.inl ⟨rest, q, rfl, hq, rfl⟩)
  · dsimp only at h
    split at h
    · cases h
    · next hword =>
        cases h
        exact .inr (.inr ⟨_, rfl, fun hnil => hword (List.isEmpty_iff.mpr hnil), rfl⟩)

theorem key_succ : key? (f + 1) t = some (names, r) ↔
    ∃ part rest, simpleKey? (skipBlanks t) = some (part, rest) ∧
    ((∃ more parts, skipBlanks rest = '.' :: more ∧ key? f more = some (parts, r) ∧
      names = part :: parts) ∨ (skipBlanks rest).head? ≠ some '.' ∧
        r = skipBlanks rest ∧ names = [part]) := by
  rw [key?]
  constructor
  · intro h
    obtain ⟨⟨part, rest⟩, hpart, h⟩ := Option.bind_eq_some_iff.mp h
    refine ⟨part, rest, hpart, ?_⟩
    dsimp only at h
    split at h
    · next more hdot =>
        obtain ⟨⟨parts, r'⟩, hmore, h⟩ := Option.bind_eq_some_iff.mp h
        cases h
        exact .inl ⟨more, parts, hdot, hmore, rfl⟩
    · next hdot =>
        cases h
        refine .inr ⟨?_, rfl, rfl⟩
        intro hhead
        obtain ⟨more, hmore⟩ := List.head?_eq_some_iff.mp hhead
        exact hdot more hmore
  · rintro ⟨part, rest, hpart, ⟨more, parts, hdot, hmore, rfl⟩ | ⟨hdot, rfl, rfl⟩⟩
    · rw [hpart]
      simp only [bind, Option.bind_some, hdot, hmore]
      rfl
    · rw [hpart]
      simp only [bind, Option.bind_some]
      split
      · next more hmore => 
        rw [hmore] at hdot
        exact absurd rfl hdot
      · rfl

theorem value_succ : value? (f + 1) d t = some (v, r) ↔
    (∃ rest l, t = '[' :: rest ∧ d < depthLimit ∧
      items? f (d + 1) rest = some (l, r) ∧ v = .array l) ∨
    (∃ rest e, t = '\x7b' :: rest ∧ d < depthLimit ∧
      members? f (d + 1) [] rest = some (e, r) ∧ v = .table .inline e) ∨
    (∃ q, (t.head? = some '"' ∨ t.head? = some '\'') ∧ quoted? t = some (q, r) ∧
      v = .string (String.ofList q)) ∨
    (∀ c, t.head? = some c → c ≠ '[' ∧ c ≠ '\x7b' ∧ c ≠ '"' ∧ c ≠ '\'') ∧
    bare? t = some (v, r) := by
  unfold value?
  constructor
  · intro h
    split at h
    · next rest =>
        split at h
        · cases h
        · next hdepth =>
            obtain ⟨⟨l, r'⟩, hl, he⟩ := Option.map_eq_some_iff.mp h
            cases he
            exact .inl ⟨rest, l, rfl, Nat.lt_of_not_le hdepth, hl, rfl⟩
    · next rest =>
        split at h
        · cases h
        · next hdepth =>
            obtain ⟨⟨e, r'⟩, hmembers, he⟩ := Option.map_eq_some_iff.mp h
            cases he
            exact .inr (.inl ⟨rest, e, rfl, Nat.lt_of_not_le hdepth, hmembers, rfl⟩)
    · obtain ⟨⟨q, r'⟩, hq, he⟩ := Option.map_eq_some_iff.mp h
      cases he
      exact .inr (.inr (.inl ⟨q, .inl rfl, hq, rfl⟩))
    · obtain ⟨⟨q, r'⟩, hq, he⟩ := Option.map_eq_some_iff.mp h
      cases he
      exact .inr (.inr (.inl ⟨q, .inr rfl, hq, rfl⟩))
    · next harray htable hbasic hliteral =>
        refine .inr (.inr (.inr ⟨?_, h⟩))
        intro c hc
        obtain ⟨rest, rfl⟩ := List.head?_eq_some_iff.mp hc
        refine ⟨?_, ?_, ?_, ?_⟩
        · rintro rfl
          exact harray rest rfl
        · rintro rfl
          exact htable rest rfl
        · rintro rfl
          exact hbasic rest rfl
        · rintro rfl
          exact hliteral rest rfl
  · rintro (⟨rest, l, rfl, hdepth, hl, rfl⟩ | ⟨rest, e, rfl, hdepth, hmembers, rfl⟩
      | ⟨q, hhead, hq, rfl⟩ |
      ⟨hhead, hbare⟩)
    · simp only [Nat.not_le.mpr hdepth, if_false, hl, Option.map_some]
    · simp only [Nat.not_le.mpr hdepth, if_false, hmembers, Option.map_some]
    · rcases hhead with hhead | hhead <;>
      · obtain ⟨rest, rfl⟩ := List.head?_eq_some_iff.mp hhead
        simp only [hq, Option.map_some]
    · split
      · exact absurd rfl (hhead _ rfl).1
      · exact absurd rfl (hhead _ rfl).2.1
      · exact absurd rfl (hhead _ rfl).2.2.1
      · exact absurd rfl (hhead _ rfl).2.2.2
      · exact hbare

theorem items_succ :
    items? (f + 1) d t = some (l, r) ↔ ∃ u, skipGaps? t.length t = some u ∧
    (u = ']' :: r ∧ l = [] ∨
      u.head? ≠ some ']' ∧ ∃ v rest w, value? f d u = some (v, rest) ∧
      skipGaps? rest.length rest = some w ∧
        ((∃ w' more, w = ',' :: w' ∧ items? f d w' = some (more, r) ∧ l = v :: more) ∨
          w = ']' :: r ∧ l = [v])) := by
  rw [items?]
  constructor
  · intro h
    obtain ⟨u, hu, h⟩ := Option.bind_eq_some_iff.mp h
    refine ⟨u, hu, ?_⟩
    split at h
    · cases h
      exact .inl ⟨rfl, rfl⟩
    · next hclose =>
        right
        constructor
        · intro hhead
          obtain ⟨rest, rfl⟩ := List.head?_eq_some_iff.mp hhead
          exact hclose rest rfl
        · obtain ⟨⟨v, rest⟩, hv, h⟩ := Option.bind_eq_some_iff.mp h
          obtain ⟨w, hw, h⟩ := Option.bind_eq_some_iff.mp h
          refine ⟨v, rest, w, hv, hw, ?_⟩
          split at h
          · obtain ⟨⟨more, r'⟩, hmore, h⟩ := Option.bind_eq_some_iff.mp h
            cases h
            exact .inl ⟨_, more, rfl, hmore, rfl⟩
          · cases h
            exact .inr ⟨rfl, rfl⟩
          · cases h
  · rintro ⟨u, hu, ⟨rfl, rfl⟩ | ⟨hclose, v, rest, w, hv, hw, h⟩⟩
    · rw [hu]
      rfl
    · rw [hu]
      simp only [bind, Option.bind_some]
      split
      · exact absurd rfl hclose
      · rw [hv]
        simp only [Option.bind_some, hw]
        rcases h with ⟨w', more, rfl, hmore, rfl⟩ | ⟨rfl, rfl⟩
        · simp only [hmore]
          rfl
        · rfl

theorem members_succ :
    members? (f + 1) d e t = some (e', r) ↔ ∃ u, skipGaps? t.length t = some u ∧
    (u = '\x7d' :: r ∧ e' = e ∨
      u.head? ≠ some '\x7d' ∧ ∃ key more v rest e₁ w, key? u.length u =
        some (key, '=' :: more) ∧ value? f d (skipBlanks more) = some (v, rest) ∧
        e.addDotted (splitKey key).2 v (splitKey key).1 true = some e₁ ∧
        skipGaps? rest.length rest = some w ∧
        ((∃ w', w = ',' :: w' ∧ members? f d e₁ w' = some (e', r)) ∨
          w = '\x7d' :: r ∧ e' = e₁)) := by
  rw [members?]
  constructor
  · intro h
    obtain ⟨u, hu, h⟩ := Option.bind_eq_some_iff.mp h
    refine ⟨u, hu, ?_⟩
    split at h
    · cases h
      exact .inl ⟨rfl, rfl⟩
    · next hclose =>
        right
        constructor
        · intro hhead
          obtain ⟨rest, rfl⟩ := List.head?_eq_some_iff.mp hhead
          exact hclose rest rfl
        · obtain ⟨⟨key, rest⟩, hkey, h⟩ := Option.bind_eq_some_iff.mp h
          dsimp only at h
          split at h
          · next more =>
              obtain ⟨⟨v, rest⟩, hv, h⟩ := Option.bind_eq_some_iff.mp h
              obtain ⟨e₁, he, h⟩ := Option.bind_eq_some_iff.mp h
              obtain ⟨w, hw, h⟩ := Option.bind_eq_some_iff.mp h
              refine ⟨key, more, v, rest, e₁, w, hkey, hv, he, hw, ?_⟩
              split at h
              · exact .inl ⟨_, rfl, h⟩
              · cases h
                exact .inr ⟨rfl, rfl⟩
              · cases h
          · cases h
  · rintro ⟨u, hu,
      ⟨rfl, rfl⟩ | ⟨hclose, key, more, v, rest, e₁, w, hkey, hv, he, hw, h⟩⟩
    · rw [hu]
      rfl
    · rw [hu]
      simp only [bind, Option.bind_some]
      split
      · exact absurd rfl hclose
      · rw [hkey]
        simp only [Option.bind_some, hv, he, hw]
        rcases h with ⟨w', rfl, h⟩ | ⟨rfl, rfl⟩
        · exact h
        · rfl

namespace Draft

variable {a b : Draft}

theorem header_eq_some :
    a.header? t = some (b, r) ↔ key? t.length t = some (b.here, ']' :: r) ∧
    a.entries.modifyAt (TomlEntries.define (splitKey b.here).2) (splitKey b.here).1 =
    some b.entries := by
  rw [header?]
  constructor
  · intro h
    obtain ⟨⟨parts, rest⟩, hkey, h⟩ := Option.bind_eq_some_iff.mp h
    dsimp only at h
    split at h
    · obtain ⟨entries, hentries, h⟩ := Option.bind_eq_some_iff.mp h
      cases h
      exact ⟨hkey, hentries⟩
    · cases h
  · rintro ⟨hkey, hentries⟩
    rw [hkey]
    simp only [bind, Option.bind_some, hentries]
    rfl

theorem rowHeader_eq_some :
    a.rowHeader? t = some (b, r) ↔ key? t.length t = some (b.here, ']' :: ']' :: r) ∧
    a.entries.modifyAt (TomlEntries.addRow (splitKey b.here).2) (splitKey b.here).1 =
    some b.entries := by
  rw [rowHeader?]
  constructor
  · intro h
    obtain ⟨⟨parts, rest⟩, hkey, h⟩ := Option.bind_eq_some_iff.mp h
    dsimp only at h
    split at h
    · obtain ⟨entries, hentries, h⟩ := Option.bind_eq_some_iff.mp h
      cases h
      exact ⟨hkey, hentries⟩
    · cases h
  · rintro ⟨hkey, hentries⟩
    rw [hkey]
    simp only [bind, Option.bind_some, hentries]
    rfl

theorem pair_eq_some : a.pair? t = some (b, r) ↔ ∃ key more v, key? t.length t =
    some (key, '=' :: more) ∧
    value? ((skipBlanks more).length + 1) 0 (skipBlanks more) = some (v, r) ∧
    a.entries.modifyAt (TomlEntries.addDotted (splitKey key).2 v (splitKey key).1
      true) a.here = some b.entries ∧ b.here = a.here := by
  rw [pair?]
  constructor
  · intro h
    obtain ⟨⟨key, rest⟩, hkey, h⟩ := Option.bind_eq_some_iff.mp h
    dsimp only at h
    split at h
    · next more =>
        obtain ⟨⟨v, rest⟩, hv, h⟩ := Option.bind_eq_some_iff.mp h
        obtain ⟨entries, hentries, h⟩ := Option.bind_eq_some_iff.mp h
        cases h
        exact ⟨key, more, v, hkey, hv, hentries, rfl⟩
    · cases h
  · rintro ⟨key, more, v, hkey, hv, hentries, hhere⟩
    rw [hkey]
    simp only [bind, Option.bind_some, hv, hentries]
    rw [← hhere]
    rfl

theorem statement_eq_some : a.statement? t = some (b, r) ↔
    (∀ c, t.head? = some c → c = '#' ∨ c = '\n' ∨ c = '\r') ∧ b = a ∧ r = t ∨
    (∃ rest, t = '[' :: '[' :: rest ∧ a.rowHeader? rest = some (b, r)) ∨
    (∃ rest, t = '[' :: rest ∧ rest.head? ≠ some '[' ∧ a.header? rest = some (b, r)) ∨
    ∃ c, t.head? = some c ∧ c ≠ '[' ∧ c ≠ '#' ∧ c ≠ '\n' ∧ c ≠ '\r' ∧
    a.pair? t = some (b, r) := by
  unfold statement?
  constructor
  · intro h
    split at h
    · cases h
      exact .inl ⟨by simp, rfl, rfl⟩
    · exact .inr (.inl ⟨_, rfl, h⟩)
    · next rest hrow =>
        refine .inr (.inr (.inl ⟨rest, rfl, ?_, h⟩))
        intro hhead
        obtain ⟨more, rfl⟩ := List.head?_eq_some_iff.mp hhead
        exact hrow more rfl
    · next c rest hrow hheader =>
        split at h
        · next hend =>
            cases h
            left
            refine ⟨?_, rfl, rfl⟩
            rintro d hd
            cases hd
            simpa [or_assoc] using hend
        · next hend =>
            have hother : c ≠ '#' ∧ c ≠ '\n' ∧
                c ≠ '\r' := by simpa [and_assoc] using hend
            refine .inr (.inr (.inr ⟨c, rfl, ?_, hother.1, hother.2.1, hother.2.2, h⟩))
            rintro rfl
            exact hheader rfl
  · rintro (⟨hend, rfl, rfl⟩ | ⟨rest, rfl, h⟩ | ⟨rest, rfl, hrow, h⟩ |
      ⟨c, hhead, hheader, hcomment, hnewline, hreturn, h⟩)
    · split
      · rfl
      · exact absurd (hend '[' rfl) (by decide)
      · exact absurd (hend '[' rfl) (by decide)
      · next c rest _ _ =>
          rw [if_pos]
          simpa [or_assoc] using hend c rfl
    · exact h
    · split
      · next heq => cases heq
      · next heq =>
          cases heq
          exact absurd rfl hrow
      · next heq =>
          cases heq
          exact h
      · next hheader heq =>
          cases heq
          exact absurd rfl hheader
    · obtain ⟨rest, rfl⟩ := List.head?_eq_some_iff.mp hhead
      split
      · next heq => cases heq
      · next heq =>
          cases heq
          exact absurd rfl hheader
      · next heq =>
          cases heq
          exact absurd rfl hheader
      · next heq =>
          cases heq
          rw [if_neg (by simp [hcomment, hnewline, hreturn])]
          exact h

theorem lines_succ : lines? (f + 1) a t = some b ↔
    ∃ a' rest w, a.statement? (skipBlanks t) = some (a', rest) ∧
    skipComment? (skipBlanks rest) = some w ∧
    (w = [] ∧ b = a' ∨ w ≠ [] ∧ ∃ n, lineEnd? w = some n ∧
      lines? f a' (w.drop n) = some b) := by
  rw [lines?]
  constructor
  · intro h
    obtain ⟨⟨a', rest⟩, hstatement, h⟩ := Option.bind_eq_some_iff.mp h
    obtain ⟨w, hw, h⟩ := Option.bind_eq_some_iff.mp h
    refine ⟨a', rest, w, hstatement, hw, ?_⟩
    split at h
    · cases h
      exact .inl ⟨rfl, rfl⟩
    · next n hne hn => exact .inr ⟨hne, n, hn, h⟩
    · cases h
  · rintro ⟨a', rest, w, hstatement, hw, h⟩
    rw [hstatement]
    simp only [bind, Option.bind_some, hw]
    rcases h with ⟨rfl, rfl⟩ | ⟨hw, n, hn, h⟩
    · rfl
    · split
      · exact absurd rfl hw
      · next hn' =>
          rw [hn] at hn'
          cases hn'
          exact h
      · next hn' =>
          rw [hn] at hn'
          cases hn'

end Draft

end Toml

end Resumable
