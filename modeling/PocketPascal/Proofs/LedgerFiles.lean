import PocketPascal.Proofs.LedgerFormat
import PocketPascal.Proofs.Reruns

/-! # Token ledgers decode what they encode

What is read from any text are words, so a ledger of tokens is read back as it was written exactly
if the texts of the tokens are words. Then it holds no line end but line feeds either, and a file
keeps it as it is.
-/

namespace PocketPascal.Ledger

/-- The tokens that a text records are words, on no line. -/
theorem isWord_of_mem_read {text : String} {t : Token} (h : t ∈ (read text).1) :
    Text.IsWord t.text.toList ∧ t.line = 0 := by
  have haccounts : Accounts 1 (Text.recordLines text.toList) (read text).1 (read text).2 :=
    readFrom_eq_iff.1 rfl
  obtain ⟨line, -, hline⟩ := haccounts.exists_records t h
  obtain ⟨code, n, hfields, -⟩ := hline.fields
  exact ⟨hfields.value_isWord, hline.line_eq⟩

theorem map_unlined_of_mem_read (text : String) :
    ((read text).1.map fun t => { t with line := 0 }) = (read text).1 := by
  refine (List.map_congr_left fun t ht => ?_).trans (List.map_id _)
  rw [← (isWord_of_mem_read ht).2]
  rfl

/-- Only words are read back. -/
theorem read_render_iff {ts : List Token} :
    read (render (ts.map tokenRecord)) = (ts.map fun t => { t with line := 0 }, []) ↔
      ∀ t ∈ ts, Text.IsWord t.text.toList := by
  refine ⟨fun h t ht => ?_, read_render_tokenRecord⟩
  have hmem : { t with line := 0 } ∈ (read (render (ts.map tokenRecord))).1 := by
    rw [h]
    exact List.mem_map_of_mem ht
  exact (isWord_of_mem_read hmem).1

/-- A text that is put into a file is what the bytes of the file are decoded to, if it holds no
carriage return. -/
theorem decodeText?_of_written {text : String} (h : '\r' ∉ text.toList) (d : Disk)
    (path : RawText) :
    ∃ d' bytes, (FileAccess.writeFile (m := StateM Disk) (.ofText path) text).run d =
        (.ok (), d') ∧
      (FileAccess.readFile (m := StateM Disk) path).run d' = (.ok bytes, d') ∧
      decodeText? bytes = some text := by
  refine ⟨d.put (.ofText path) text.toUTF8, text.toUTF8, ?_, ?_, decodeText?_toUTF8 h⟩
  · simp only [FileAccess.writeFile, Disk.writeText, RawText.toString?_ofString]
    rfl
  · rw [Disk.run_readFile, Disk.read, Disk.file?_put_self]

/-- A ledger of tokens is read back without a warning, lines apart, exactly if the texts of the
tokens are words, and then also from a file that it is written to. All texts that are read from a
ledger are words, so what is read from any text is read again from its own ledger. -/
theorem decodes_encoded :
    (∀ ts : List Token, read (render (ts.map tokenRecord)) =
        (ts.map fun t => { t with line := 0 }, []) ↔ ∀ t ∈ ts, Text.IsWord t.text.toList) ∧
      (∀ ts : List Token, (∀ t ∈ ts, Text.IsWord t.text.toList) → ∀ (d : Disk) (path : RawText),
        ∃ d' bytes, (FileAccess.writeFile (m := StateM Disk) (.ofText path)
            (render (ts.map tokenRecord))).run d = (.ok (), d') ∧
          (FileAccess.readFile (m := StateM Disk) path).run d' = (.ok bytes, d') ∧
          (decodeText? bytes).map read = some (ts.map fun t => { t with line := 0 }, [])) ∧
      ∀ text : String, (∀ t ∈ (read text).1, Text.IsWord t.text.toList ∧ t.line = 0) ∧
        read (render ((read text).1.map tokenRecord)) = ((read text).1, []) := by
  refine ⟨fun ts => read_render_iff, fun ts h d path => ?_, fun text => ⟨?_, ?_⟩⟩
  · obtain ⟨d', bytes, hwrite, hread, hdecode⟩ :=
      decodeText?_of_written (return_not_mem_render h) d path
    refine ⟨d', bytes, hwrite, hread, ?_⟩
    rw [hdecode, Option.map_some, read_render_tokenRecord h]
  · exact fun t ht => isWord_of_mem_read ht
  · rw [read_render_tokenRecord fun t ht => (isWord_of_mem_read ht).1, map_unlined_of_mem_read]

/-- The texts of these tokens look like codes, are wider than their field, or suit no kind. -/
theorem decodes_encoded_of_odd_words :
    let ts : List Token := [{ kind := .constant, text := "007" }, { kind := .less, text := "25" },
      { kind := .identifier, text := "wider-than-sixteen-\u0663", line := 2 },
      { kind := .endOfLine, text := "\u0007" }]
    (∀ t ∈ ts, Text.IsWord t.text.toList) ∧
      ∃ d' bytes, (FileAccess.writeFile (m := StateM Disk) (.ofText "out/odd.dyd")
          (render (ts.map tokenRecord))).run ⟨fun _ => none⟩ = (.ok (), d') ∧
        (FileAccess.readFile (m := StateM Disk) "out/odd.dyd").run d' = (.ok bytes, d') ∧
        (decodeText? bytes).map read = some (ts.map fun t => { t with line := 0 }, []) := by
  intro ts
  have hts : ∀ t ∈ ts, Text.IsWord t.text.toList := by decide +kernel
  exact ⟨hts, decodes_encoded.2.1 ts hts _ _⟩

end PocketPascal.Ledger
