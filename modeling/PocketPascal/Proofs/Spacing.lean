import Mathlib.Logic.Relation
import PocketPascal.Proofs.Reanalysis

/-! # How much space there is does not matter

Spaces and tabs only keep apart what stands between them, and blanks at the ends of a line are not
there. That is so in a text that is no program as well: a lexeme and a rejected text end before a
space, or else are a colon that takes the space along, and behind it another space or none is the
same.
-/

namespace PocketPascal

namespace Text

/-- Blanks at the ends of a text are taken off with those that were there. -/
theorem trim_append_blank {before after : List Char} (hbefore : ∀ c ∈ before, isBlank c = true)
    (hafter : ∀ c ∈ after, isBlank c = true) (cs : List Char) :
    trim (before ++ cs ++ after) = trim cs := by
  have hreverse : ∀ c ∈ after.reverse, isBlank c = true := by simpa using hafter
  rw [trim, trim, List.append_assoc, List.dropWhile_append_of_pos hbefore, List.dropWhile_append]
  split
  · next hnone =>
    rw [List.isEmpty_iff.1 hnone, List.dropWhile_eq_nil_iff.2 hafter]
  · rw [List.reverse_append, List.dropWhile_append_of_pos hreverse]

/-- What stands between two characters that are not blank stays as it is. -/
theorem trim_append_append {before after : List Char} (hbefore : before.dropWhile isBlank ≠ [])
    (hafter : after.reverse.dropWhile isBlank ≠ []) (cs : List Char) :
    trim (before ++ cs ++ after) =
      before.dropWhile isBlank ++ cs ++ (after.reverse.dropWhile isBlank).reverse := by
  rw [trim, List.append_assoc, List.dropWhile_append, if_neg (by simpa using hbefore),
    List.reverse_append, List.reverse_append, List.append_assoc, List.dropWhile_append,
    if_neg (by simpa using hafter)]
  simp

end Text

namespace Lexer

/-! ## Behind a space -/

/-- Whether a lexeme ends before a text is seen from the first character of the text. -/
theorem Munches.of_head_eq {limit : Int} {text rest rest' : List Char} {k : Kind}
    (h : Munches limit text k rest) (hhead : rest'.head? = rest.head?) :
    Munches limit text k rest' := by
  cases h with
  | keyword hname hend hk => exact .keyword hname (by rwa [EndsBefore, hhead]) hk
  | identifier hname hend hk hlimit =>
    exact .identifier hname (by rwa [EndsBefore, hhead]) hk hlimit
  | constant hdigits hend => exact .constant hdigits (by rwa [EndsBefore, hhead])
  | pair hk hab => exact .pair hk hab
  | mark hk ha hpair => exact .mark hk ha (by rwa [hhead])

theorem Rejects.of_head_eq {limit : Int} {text rest rest' : List Char} {message : String}
    (h : Rejects limit text message rest) (hhead : rest'.head? = rest.head?) :
    Rejects limit text message rest' := by
  cases h with
  | overlong hname hend hk hlimit => exact .overlong hname (by rwa [EndsBefore, hhead]) hk hlimit
  | colon ha => exact .colon ha
  | lastColon =>
    obtain rfl : rest' = [] := List.head?_eq_none_iff.1 hhead
    exact .lastColon
  | invalid hspace hcolon hname hmark => exact .invalid hspace hcolon hname hmark

section Cut

variable {limit : Int} {number : Nat} {before text rest : List Char} {ts : List Token}
  {ds : List Diagnostic}

/-- A piece of a text ends before a space in it, or holds the space. -/
theorem append_eq_append_space {y : List Char} (h : text ++ rest = before ++ ' ' :: y) :
    (∃ before', before = text ++ before' ∧ rest = before' ++ ' ' :: y) ∨
      ∃ cs, text = before ++ ' ' :: cs ∧ y = cs ++ rest := by
  rcases List.append_eq_append_iff.1 h with h | ⟨cs, htext, hcs⟩
  · exact Or.inl h
  · cases cs with
    | nil => exact Or.inl ⟨[], by simpa using htext.symm, by simpa using hcs.symm⟩
    | cons c cs =>
      obtain ⟨rfl, rfl⟩ := List.cons.inj hcs
      exact Or.inr ⟨cs, htext, rfl⟩

/-- A rejected text that holds a space is a colon with that space. -/
theorem Rejects.of_space {cs : List Char} {message : String}
    (h : Rejects limit (before ++ ' ' :: cs) message rest) :
    cs = [] ∧ ∀ rest', Rejects limit (before ++ ' ' :: cs) message rest' := by
  generalize htext : before ++ ' ' :: cs = text at h
  have hmem : ' ' ∈ text := by simp [← htext]
  cases h with
  | overlong hname => exact absurd (hname.isWord.not_blank _ hmem) (by decide)
  | @colon a _ ha =>
    refine ⟨?_, fun _ => .colon ha⟩
    rcases List.append_eq_cons_iff.1 htext with ⟨rfl, hcs⟩ | ⟨before', rfl, hcs⟩
    · exact absurd hcs (by simp)
    · rcases List.append_eq_cons_iff.1 hcs.symm with ⟨rfl, hcs⟩ | ⟨_, -, hcs⟩
      · exact (List.cons.inj hcs).2.symm
      · exact absurd hcs (by simp)
  | lastColon => exact absurd hmem (by decide)
  | invalid hspace => exact absurd (List.mem_singleton.1 hmem).symm hspace

/-- Texts that are cut alike may be exchanged behind a space. -/
theorem Cut.behind_space {y z : List Char}
    (hyz : ∀ {ts ds}, Cut limit number y ts ds → Cut limit number z ts ds)
    (h : Cut limit number (before ++ ' ' :: y) ts ds) :
    Cut limit number (before ++ ' ' :: z) ts ds := by
  generalize hcs : before ++ ' ' :: y = cs at h
  induction h generalizing before with
  | done => exact absurd hcs (by simp)
  | @space rest ts ds h ih =>
    cases before with
    | nil => exact .space (hyz ((List.cons.inj hcs).2 ▸ h))
    | cons c before =>
      obtain ⟨rfl, hrest⟩ := List.cons.inj hcs
      exact .space (ih hrest)
  | @lexeme text rest k ts ds hk h ih =>
    rcases append_eq_append_space hcs.symm with ⟨before', rfl, hrest⟩ | ⟨cs, htext, -⟩
    · have hhead : (before' ++ ' ' :: z).head? = rest.head? := by
        rw [hrest]
        cases before' <;> rfl
      rw [List.append_assoc]
      exact .lexeme (hk.of_head_eq hhead) (ih hrest.symm)
    · exact absurd (hk.isWord.not_blank ' ' (by simp [htext])) (by decide)
  | @error text rest message ts ds hm h ih =>
    rcases append_eq_append_space hcs.symm with ⟨before', rfl, hrest⟩ | ⟨cs, rfl, rfl⟩
    · have hhead : (before' ++ ' ' :: z).head? = rest.head? := by
        rw [hrest]
        cases before' <;> rfl
      rw [List.append_assoc]
      exact .error (hm.of_head_eq hhead) (ih hrest.symm)
    · -- a colon has taken the space along
      obtain ⟨rfl, hm⟩ := hm.of_space
      rw [← List.singleton_append, ← List.append_assoc]
      exact .error (hm z) (hyz h)

/-- Spaces before a text yield nothing. -/
theorem cut_spaces_iff (n : Nat) : Cut limit number (List.replicate n ' ' ++ rest) ts ds ↔
    Cut limit number rest ts ds := by
  induction n with
  | zero => rfl
  | succ n ih =>
    have hpiece : pieceAt limit ' ' ([] ++ (List.replicate n ' ' ++ rest)) = ⟨[' '], .space⟩ := rfl
    obtain ⟨htokens, herrors⟩ := textTokens_of_pieceAt number hpiece
    rw [← ih, cut_iff, cut_iff]
    exact Iff.of_eq (congrArg₂ (fun ts' ds' => ts = ts' ∧ ds = ds') htokens herrors)

/-- One space or more are the same. -/
theorem Cut.of_spaces {after : List Char} {n : Nat} (n' : Nat)
    (h : Cut limit number (before ++ List.replicate (n + 1) ' ' ++ after) ts ds) :
    Cut limit number (before ++ List.replicate (n' + 1) ' ' ++ after) ts ds := by
  rw [List.replicate_succ, List.append_assoc, List.cons_append] at h ⊢
  exact h.behind_space fun h => (cut_spaces_iff n').2 ((cut_spaces_iff n).1 h)

end Cut

/-! ## Lines -/

/-- A line in which there is another amount of space: spaces and tabs in place of spaces and tabs,
or other blanks at its ends. -/
inductive Respaced : List Char → List Char → Prop where
  | gap (before after gap gap' : List Char) (hne : gap ≠ []) (hne' : gap' ≠ [])
      (h : ∀ c ∈ gap, c = ' ' ∨ c = '\t') (h' : ∀ c ∈ gap', c = ' ' ∨ c = '\t') :
      Respaced (before ++ gap ++ after) (before ++ gap' ++ after)
  | ends (cs before after before' after' : List Char)
      (h : ∀ c ∈ before ++ after ++ before' ++ after', Text.isBlank c = true) :
      Respaced (before ++ cs ++ after) (before' ++ cs ++ after')

/-- Two lines that yield the same tokens and errors, whatever their number, and are blank
together. -/
structure ReadAlike (limit : Int) (line line' : List Char) : Prop where
  blank : lineText line' = [] ↔ lineText line = []
  cut : ∀ {number ts ds}, Cut limit number (lineText line') ts ds ↔
    Cut limit number (lineText line) ts ds

theorem ReadAlike.of_eq {limit : Int} {line line' : List Char}
    (h : lineText line' = lineText line) : ReadAlike limit line line' :=
  ⟨by rw [h], by rw [h]⟩

theorem ReadAlike.trans {limit : Int} {line line' line'' : List Char}
    (h : ReadAlike limit line line') (h' : ReadAlike limit line' line'') :
    ReadAlike limit line line'' :=
  ⟨h'.blank.trans h.blank, h'.cut.trans h.cut⟩

theorem ReadAlike.refl (limit : Int) (line : List Char) : ReadAlike limit line line :=
  .of_eq rfl

/-- Blanks at the ends of a line are not there. -/
theorem lineText_append_blank {before after : List Char} (cs : List Char)
    (hbefore : ∀ c ∈ before, Text.isBlank c = true) (hafter : ∀ c ∈ after, Text.isBlank c = true) :
    lineText (before ++ cs ++ after) = lineText cs := by
  have hmap : ∀ {cs : List Char}, (∀ c ∈ cs, Text.isBlank c = true) →
      ∀ c ∈ cs.map (fun c => if c = '\t' then ' ' else c), Text.isBlank c = true := by
    intro cs hcs c hc
    obtain ⟨d, hd, rfl⟩ := List.mem_map.1 hc
    rw [isBlank_of_tab, hcs d hd]
  rw [lineText, List.map_append, List.map_append,
    Text.trim_append_blank (hmap hbefore) (hmap hafter), lineText]

/-- A run of spaces and tabs is as many spaces. -/
theorem map_gap {gap : List Char} (h : ∀ c ∈ gap, c = ' ' ∨ c = '\t') :
    gap.map (fun c => if c = '\t' then ' ' else c) = List.replicate gap.length ' ' := by
  rw [List.eq_replicate_iff]
  refine ⟨List.length_map _, ?_⟩
  rw [List.forall_mem_map]
  intro c hc
  rcases h c hc with rfl | rfl <;> rfl

theorem isBlank_of_gap {gap : List Char} (h : ∀ c ∈ gap, c = ' ' ∨ c = '\t') :
    ∀ c ∈ gap, Text.isBlank c = true := by
  intro c hc
  rcases h c hc with rfl | rfl <;> decide

/-- What stands between two characters that are not blank is not at an end of the line. -/
theorem exists_lineText_append {before after : List Char}
    (hbefore : ¬ ∀ c ∈ before, Text.isBlank c = true)
    (hafter : ¬ ∀ c ∈ after, Text.isBlank c = true) :
    ∃ front back, front ≠ [] ∧ ∀ cs, lineText (before ++ cs ++ after) =
      front ++ cs.map (fun c => if c = '\t' then ' ' else c) ++ back := by
  have hblank : ∀ {cs : List Char}, ¬ (∀ c ∈ cs, Text.isBlank c = true) →
      (cs.map (fun c => if c = '\t' then ' ' else c)).dropWhile Text.isBlank ≠ [] := by
    intro cs hcs hnil
    rw [List.dropWhile_eq_nil_iff, List.forall_mem_map] at hnil
    exact hcs fun c hc => isBlank_of_tab c ▸ hnil c hc
  have hback : ((after.map (fun c => if c = '\t' then ' ' else c)).reverse).dropWhile
      Text.isBlank ≠ [] := by
    rw [← List.map_reverse]
    exact hblank (by simpa using hafter)
  refine ⟨_, _, hblank hbefore,
    fun cs => Eq.trans ?_ (Text.trim_append_append (hblank hbefore) hback _)⟩
  rw [lineText, List.map_append, List.map_append]

/-- Another amount of space changes nothing. -/
theorem Respaced.readAlike {line line' : List Char} (limit : Int) (h : Respaced line line') :
    ReadAlike limit line line' := by
  cases h with
  | ends cs before after before' after' h =>
    simp only [List.forall_mem_append] at h
    obtain ⟨⟨⟨hbefore, hafter⟩, hbefore'⟩, hafter'⟩ := h
    exact .of_eq ((lineText_append_blank cs hbefore' hafter').trans
      (lineText_append_blank cs hbefore hafter).symm)
  | gap before after gap gap' hne hne' h h' =>
    by_cases hbefore : ∀ c ∈ before, Text.isBlank c = true
    · have hstart : ∀ {gap : List Char}, (∀ c ∈ gap, c = ' ' ∨ c = '\t') →
          lineText (before ++ gap ++ after) = lineText after := by
        intro gap h
        have hblank := List.forall_mem_append.2 ⟨hbefore, isBlank_of_gap h⟩
        simpa using lineText_append_blank after hblank (List.forall_mem_nil _)
      exact .of_eq ((hstart h').trans (hstart h).symm)
    by_cases hafter : ∀ c ∈ after, Text.isBlank c = true
    · have hend : ∀ {gap : List Char}, (∀ c ∈ gap, c = ' ' ∨ c = '\t') →
          lineText (before ++ gap ++ after) = lineText before := by
        intro gap h
        have hblank := List.forall_mem_append.2 ⟨isBlank_of_gap h, hafter⟩
        simpa using lineText_append_blank before (List.forall_mem_nil _) hblank
      exact .of_eq ((hend h').trans (hend h).symm)
    obtain ⟨front, back, hfront, htext⟩ := exists_lineText_append hbefore hafter
    obtain ⟨n, hn⟩ := Nat.exists_eq_succ_of_ne_zero (mt List.length_eq_zero_iff.1 hne)
    obtain ⟨n', hn'⟩ := Nat.exists_eq_succ_of_ne_zero (mt List.length_eq_zero_iff.1 hne')
    refine ⟨by rw [htext, htext]; simp [hfront], ?_⟩
    rw [htext, htext, map_gap h, map_gap h', hn, hn']
    exact ⟨fun hcut => hcut.of_spaces n, fun hcut => hcut.of_spaces n'⟩

theorem ReadAlike.of_reflTransGen {limit : Int} {line line' : List Char}
    (h : Relation.ReflTransGen Respaced line line') : ReadAlike limit line line' := by
  induction h with
  | refl => exact .refl limit line
  | tail _ hstep ih => exact ih.trans (hstep.readAlike limit)

/-- Lines that read alike one by one have the same tokens and the same errors. -/
theorem lexesFrom_of_readAlike {limit : Int} {lines lines' : List (List Char)}
    (h : List.Forall₂ (ReadAlike limit) lines lines') {k : Nat} {ts : List Token}
    {ds : List Diagnostic} (hlexes : LexesFrom limit k lines ts ds) :
    LexesFrom limit k lines' ts ds := by
  induction h generalizing k ts ds with
  | nil => exact hlexes
  | @cons line line' lines lines' hline _ ih =>
    cases hlexes with
    | blank hstrips hlexes =>
      have hblank := hline.blank.2 hstrips.eq_lineText.symm
      exact .blank (hblank ▸ strips_lineText line') (ih hlexes)
    | line hstrips htext hcut hlexes =>
      obtain rfl := hstrips.eq_lineText
      exact .line (strips_lineText line') (mt hline.blank.1 htext) (hline.cut.2 hcut) (ih hlexes)

/-! ## Carriage returns -/

/-- A text with a carriage return before every line feed. -/
def withReturns (cs : List Char) : List Char :=
  cs.flatMap fun c => if c = '\n' then ['\r', '\n'] else [c]

/-- A carriage return before a line feed stands at the end of a line. -/
theorem sourceLines_withReturns (cs : List Char) :
    List.Forall₂ (fun line line' => line' = line ∨ line' = line ++ ['\r'])
      (Text.sourceLines cs) (Text.sourceLines (withReturns cs)) := by
  unfold Text.sourceLines
  induction cs with
  | nil => exact .cons (Or.inl rfl) .nil
  | cons c cs ih =>
    have hcons : withReturns (c :: cs) =
        (if c = '\n' then ['\r', '\n'] else [c]) ++ withReturns cs := List.flatMap_cons
    rw [hcons]
    split
    · next hc =>
      subst hc
      exact .cons (Or.inr rfl) ih
    · next hc =>
      have hfeed : (c == '\n') = false := by simpa using hc
      rw [List.singleton_append, List.splitOn_cons_eq_if_modifyHead,
        List.splitOn_cons_eq_if_modifyHead, hfeed]
      generalize cs.splitOn '\n' = lines at ih ⊢
      generalize (withReturns cs).splitOn '\n' = lines' at ih ⊢
      cases ih with
      | nil => exact .nil
      | cons h hlines => exact .cons (h.imp (congrArg _) (congrArg _)) hlines

end Lexer

open Lexer in
/-- Sources whose lines read alike one by one have the same tokens and the same errors. -/
theorem tokenize_of_readAlike {limit : Int} {source source' : String}
    (h : List.Forall₂ (ReadAlike limit) (Text.sourceLines source.toList)
      (Text.sourceLines source'.toList)) : tokenize limit source' = tokenize limit source := by
  have hlexes : LexesFrom limit 1 (Text.sourceLines source'.toList) (tokenize limit source).1
      (tokenize limit source).2 := lexesFrom_of_readAlike h (lexesFrom_iff.2 ⟨rfl, rfl⟩)
  obtain ⟨htokens, herrors⟩ := lexesFrom_iff.1 hlexes
  exact Prod.ext htokens.symm herrors.symm

/-- How many spaces and tabs there are, and which blanks are at the ends of lines, makes no
difference, be the source a program or not. Nor does it if every line feed gets a carriage return
before it. -/
theorem tokenize_of_respaced (limit : Int) :
    (∀ source source' : String,
      List.Forall₂ (Relation.ReflTransGen Lexer.Respaced) (Text.sourceLines source.toList)
        (Text.sourceLines source'.toList) →
      tokenize limit source' = tokenize limit source) ∧
    ∀ source : String, tokenize limit (String.ofList (Lexer.withReturns source.toList)) =
      tokenize limit source := by
  constructor
  · intro source source' h
    exact tokenize_of_readAlike (h.imp fun _ _ => Lexer.ReadAlike.of_reflTransGen)
  · intro source
    have hreturn : ∀ c ∈ ['\r'], Text.isBlank c = true := List.forall_mem_singleton.2 (by decide)
    refine tokenize_of_readAlike ?_
    rw [String.toList_ofList]
    refine (Lexer.sourceLines_withReturns source.toList).imp ?_
    rintro line line' (rfl | rfl)
    · exact .refl limit _
    · exact .of_eq (by simpa using
        Lexer.lineText_append_blank line (List.forall_mem_nil _) hreturn)

/-- A misused colon takes one of three spaces along, or the tab in their place; and the ideographic
space behind the line is not there. -/
theorem tokenize_of_respaced_of_misused_colon :
    let source := "x :   y\n"
    let source' := "x :\ty\u3000\r\n"
    List.Forall₂ (Relation.ReflTransGen Lexer.Respaced) (Text.sourceLines source.toList)
        (Text.sourceLines source'.toList) ∧
      tokenize 16 source' = tokenize 16 source ∧ (tokenize 16 source).2.length = 1 := by
  intro source source'
  have hgap : Lexer.Respaced "x :   y".toList "x :\ty".toList :=
    .gap "x :".toList "y".toList "   ".toList "\t".toList (by decide) (by decide) (by simp)
      (by simp)
  have hends : Lexer.Respaced "x :\ty".toList "x :\ty\u3000\r".toList :=
    .ends "x :\ty".toList [] [] [] "\u3000\r".toList (List.all_eq_true.1 (by decide))
  have hcut : Text.sourceLines source.toList = ["x :   y".toList, []] := by decide +kernel
  have hcut' : Text.sourceLines source'.toList = ["x :\ty\u3000\r".toList, []] := by decide +kernel
  have hlines : List.Forall₂ (Relation.ReflTransGen Lexer.Respaced)
      (Text.sourceLines source.toList) (Text.sourceLines source'.toList) := by
    rw [hcut, hcut']
    exact .cons (.tail (.single hgap) hends) (.cons .refl .nil)
  exact ⟨hlines, (tokenize_of_respaced 16).1 source source' hlines, by decide +kernel⟩

end PocketPascal
