import PlayStation.Proofs.Toml.Lines
import PlayStation.Toml.Record

/-!
# The library's package

What this library writes describes the record (`writes_package`), and from a document that
describes a sheet it reads the record that the sheet gives (`reads_package`).

Reading goes in two steps.  The headers and entries of a sheet make the document that has
its tables (`foldlM_expressionsOf`), and from these tables the declared settings get the
texts of the sheet (`Declaration.read?_tablesOf`).
-/

namespace PlayStation.Toml

variable {σ : Type} {entries : Entries} {name header : String} {value : Value}
  {texts : List (String × String)} {sheet : Sheet}

/-! ## Writing -/

/-- The lines that are written for names of their own describe their texts. -/
theorem entryLines_flatMap (proper : ProperNames (texts.map Prod.fst)) :
    EntryLines (texts.flatMap fun (name, text) => entryLine name text) texts := by
  induction texts with
  | nil => exact .nil
  | cons entry texts ih =>
    obtain ⟨name, text⟩ := entry
    obtain ⟨bare, distinct⟩ := proper
    simp only [List.map_cons, List.forall_mem_cons, List.nodup_cons] at bare distinct
    have blank : isSpace [' '] = true := rfl
    have line := EntryLines.entry bare.1 blank blank (isString_quote text.toList)
      (by simpa using distinct.1) (ih ⟨bare.2, distinct.2⟩)
    simpa [entryLine] using line

/-- What is written for a sheet of proper names describes it. -/
theorem describes_write (headers : ProperNames (sheet.map Prod.fst))
    (names : ∀ part ∈ sheet, ProperNames (part.2.map Prod.fst)) :
    Describes (write sheet).toList sheet := by
  rw [write, String.toList_ofList]
  induction sheet with
  | nil => exact .nil
  | cons part sheet ih =>
    obtain ⟨header, texts⟩ := part
    obtain ⟨bare, distinct⟩ := headers
    simp only [List.map_cons, List.forall_mem_cons, List.nodup_cons] at bare distinct names
    have later := ih ⟨bare.2, distinct.2⟩ names.2
    have new : String.ofList header.toList ∉ sheet.map Prod.fst := by simpa using distinct.1
    have entries := entryLines_flatMap names.1
    cases sheet with
    | nil =>
      have := Describes.part bare.1 entries new later
      simpa [sectionLines, List.intercalate] using this
    | cons next sheet =>
      -- The empty line between two sections belongs to what follows it.
      have := Describes.part bare.1 entries new later.emptyLine
      simpa [sectionLines, List.intercalate] using this

/-- **Records are written.**  The library's package writes every record. -/
theorem writes_package : package.Writes := by
  intro σ d proper record
  refine ⟨_, rfl, describes_write ?_ ?_⟩
  · simpa [Declaration.sheet, Section.texts, Function.comp_def] using proper.headers
  · rw [Declaration.sheet, List.forall_mem_map]
    intro part mem
    simpa [Section.texts, Function.comp_def] using proper.names part mem

/-! ## The tables of a sheet -/

/-- The table of the texts below a header. -/
def tableOf (texts : List (String × String)) : Value :=
  .table .header (texts.map fun (name, text) => (name, .string text))

/-- The tables of a document that describes a sheet. -/
def tablesOf (sheet : Sheet) : Entries :=
  sheet.map fun (header, texts) => (header, tableOf texts)

/-- A new name comes last. -/
theorem put_new (new : name ∉ entries.map Prod.fst) (value : Value) :
    Entries.put name value entries = entries ++ [(name, value)] := by
  induction entries with
  | nil => rfl
  | cons e entries ih =>
    simp only [List.map_cons, List.mem_cons, not_or] at new
    simp [Entries.put, Ne.symm new.1, ih new.2]

/-- The entry that came last is replaced where it stands. -/
theorem put_last (new : name ∉ entries.map Prod.fst) (old value : Value) :
    Entries.put name value (entries ++ [(name, old)]) = entries ++ [(name, value)] := by
  induction entries with
  | nil => simp [Entries.put]
  | cons e entries ih =>
    simp only [List.map_cons, List.mem_cons, not_or] at new
    simp [Entries.put, Ne.symm new.1, ih new.2]

/-- A name that no entry has is not found. -/
theorem lookup_new (new : name ∉ entries.map Prod.fst) : entries.lookup name = none := by
  simpa [List.lookup_eq_none_iff] using fun n v mem (same : name = n) =>
    new (same ▸ List.mem_map_of_mem mem)

/-- An entry with a new name is found behind the others. -/
theorem lookup_last (new : name ∉ entries.map Prod.fst) (value : Value) :
    (entries ++ [(name, value)]).lookup name = some value := by
  rw [List.lookup_append, lookup_new new, List.lookup_cons_self]
  rfl

/-- A header that is new opens a table that comes last. -/
theorem add_header (new : header ∉ entries.map Prod.fst) (current : List String) :
    Document.add ⟨.table .header entries, current⟩ (.table ⟨[], header⟩) =
      some ⟨.table .header (entries ++ [(header, tableOf [])]), [header]⟩ := by
  simp [Document.add, Value.openTable, Value.update, lookup_new new, put_new new, tableOf,
    Value.empty]

/-- An entry with a new name is added to the table that came last. -/
theorem add_entry (newHeader : header ∉ entries.map Prod.fst)
    (new : name ∉ texts.map Prod.fst) (text : String) :
    Document.add ⟨.table .header (entries ++ [(header, tableOf texts)]), [header]⟩
        (entryOf (name, text)) =
      some ⟨.table .header (entries ++ [(header, tableOf (texts ++ [(name, text)]))]),
        [header]⟩ := by
  have newEntry : name ∉
      (texts.map fun (name, text) => ((name, .string text) : String × Value)).map Prod.fst := by
    simpa [Function.comp_def] using new
  simp [Document.add, entryOf, Value.update, Value.insert, lookup_last newHeader,
    put_last newHeader, tableOf, Origin.admits, lookup_new newEntry, put_new newEntry]

/-- The entries below a header are added to its table. -/
theorem foldlM_entries (newHeader : header ∉ entries.map Prod.fst)
    {more : List (String × String)} (distinct : ((texts ++ more).map Prod.fst).Nodup) :
    (more.map entryOf).foldlM Document.add
        ⟨.table .header (entries ++ [(header, tableOf texts)]), [header]⟩ =
      some ⟨.table .header (entries ++ [(header, tableOf (texts ++ more))]), [header]⟩ := by
  induction more generalizing texts with
  | nil => simp
  | cons entry more ih =>
    have split : texts ++ entry :: more = (texts ++ [entry]) ++ more := by simp
    have new : entry.1 ∉ texts.map Prod.fst := by
      simp only [List.map_append, List.map_cons, List.nodup_append, List.mem_cons] at distinct
      exact fun mem => distinct.2.2 _ mem _ (.inl rfl) rfl
    rw [split] at distinct ⊢
    rw [List.map_cons, List.foldlM_cons, add_entry newHeader new]
    exact ih distinct

/-- Where no header stands twice, and below none of them a name. -/
def Sheet.Distinct (sheet : Sheet) : Prop :=
  (sheet.map Prod.fst).Nodup ∧ ∀ part ∈ sheet, (part.2.map Prod.fst).Nodup

/-- No line repeats the name of another. -/
theorem EntryLines.nodup {lines : List Char} (h : EntryLines lines texts) :
    (texts.map Prod.fst).Nodup := by
  induction h with
  | nil => exact .nil
  | emptyLine _ ih => exact ih
  | entry _ _ _ _ new _ ih => exact List.nodup_cons.2 ⟨new, ih⟩

/-- A document describes a sheet in which no name comes twice. -/
theorem Describes.distinct {document : List Char} (h : Describes document sheet) :
    sheet.Distinct := by
  induction h with
  | nil => exact ⟨.nil, by simp⟩
  | emptyLine _ ih => exact ih
  | part _ entries new _ ih =>
    exact ⟨List.nodup_cons.2 ⟨new, ih.1⟩, List.forall_mem_cons.2 ⟨entries.nodup, ih.2⟩⟩

/-- The headers and entries of a sheet make its tables. -/
theorem foldlM_expressionsOf (h : sheet.Distinct)
    (new : ∀ header ∈ sheet.map Prod.fst, header ∉ entries.map Prod.fst) (current : List String) :
    ∃ last, (expressionsOf sheet).foldlM Document.add ⟨.table .header entries, current⟩ =
      some ⟨.table .header (entries ++ tablesOf sheet), last⟩ := by
  induction sheet generalizing entries current with
  | nil => exact ⟨current, by simp [expressionsOf, tablesOf]⟩
  | cons part sheet ih =>
    obtain ⟨header, texts⟩ := part
    obtain ⟨headers, names⟩ := h
    simp only [List.map_cons, List.nodup_cons, List.forall_mem_cons] at headers names new
    have later : ∀ other ∈ sheet.map Prod.fst,
        other ∉ (entries ++ [(header, tableOf texts)]).map Prod.fst := by
      intro other mem
      simpa [new.2 other mem] using ne_of_mem_of_not_mem mem headers.1
    obtain ⟨last, rest⟩ := ih ⟨headers.2, names.2⟩ later [header]
    have distinct : (([] ++ texts).map Prod.fst).Nodup := by simpa using names.1
    have below := foldlM_entries new.1 distinct
    refine ⟨last, ?_⟩
    have lines : expressionsOf ((header, texts) :: sheet) =
        .table ⟨[], header⟩ :: (texts.map entryOf ++ expressionsOf sheet) := rfl
    rw [lines, List.foldlM_cons, add_header new.1, Option.bind_eq_bind, Option.bind_some,
      List.foldlM_append, below, Option.bind_eq_bind, Option.bind_some, List.nil_append, rest]
    simp [tablesOf]

/-- A document that describes a sheet is read as its tables. -/
theorem Describes.parse? {document : String} (h : Describes document.toList sheet) :
    parse? document = some (.table .header (tablesOf sheet)) := by
  have new : ∀ header ∈ sheet.map Prod.fst, header ∉ ([] : Entries).map Prod.fst := by simp
  obtain ⟨last, made⟩ := foldlM_expressionsOf h.distinct new []
  rw [Toml.parse?, h.expressions?]
  simp only [Option.bind_eq_bind, Option.bind_some]
  rw [show ({} : Document) = ⟨.table .header [], []⟩ from rfl, made]
  rfl

/-! ## The record of the tables -/

/-- Entries are readable if all their values are. -/
theorem entriesReadable_eq_all (entries : Entries) :
    Value.entriesReadable entries = entries.all (·.2.readable) := by
  induction entries with
  | nil => rfl
  | cons e entries ih => rw [Value.entriesReadable, ih, List.all_cons]

/-- Then those of the other names are, too. -/
theorem othersReadable_of_readable (h : entries.all (·.2.readable) = true) (names : List String) :
    othersReadable names entries = true := by
  rw [othersReadable, entriesReadable_eq_all]
  exact List.all_eq_true.2 fun e mem => List.all_eq_true.1 h e (List.mem_filter.1 mem).1

/-- Texts can be ignored. -/
theorem readable_texts (texts : List (String × String)) :
    (texts.map fun (name, text) => ((name, .string text) : String × Value)).all (·.2.readable) =
      true := by
  simp [Value.readable]

/-- Tables of texts can be ignored. -/
theorem readable_tablesOf (sheet : Sheet) : (tablesOf sheet).all (·.2.readable) = true := by
  simp only [tablesOf, List.all_map, List.all_eq_true]
  intro part _
  simp [tableOf, Value.readable, entriesReadable_eq_all]

/-- What a name stands for may be changed before it is looked up or after. -/
theorem lookup_map_snd {α β : Type} (f : α → β) (name : String) (items : List (String × α)) :
    (items.map fun (n, item) => (n, f item)).lookup name = (items.lookup name).map f := by
  induction items with
  | nil => rfl
  | cons item items ih =>
    obtain ⟨n, item⟩ := item
    simp only [List.map_cons, List.lookup_cons]
    split <;> simp [ih]

/-- A text is read as it is, also where only some names are allowed. -/
theorem Setting.read?_string (setting : Setting σ) (record : σ) (text : String) :
    setting.read? record (some (.string text)) = setting.put? text record := by
  cases choice : setting.isChoice <;> simp [Setting.read?, choice, choice?, text?]

/-- A fold over items beside their images looks at the items only. -/
theorem foldlM_zip_map {α β : Type} (step : σ → α × β → Option σ) (image : α → β)
    (items : List α) (record : σ) : (items.zip (items.map image)).foldlM step record =
      items.foldlM (fun record item => step record (item, image item)) record := by
  induction items generalizing record with
  | nil => rfl
  | cons item items ih => simp only [List.map_cons, List.zip_cons_cons, List.foldlM_cons, ih]

/-- The settings of a section get the texts of its table. -/
theorem Section.read?_tableOf (part : Section σ) (record : σ) (texts : List (String × String)) :
    part.read? record (some (tableOf texts)) = part.fill? texts record := by
  have readable := othersReadable_of_readable (readable_texts texts)
  have found (name : String) : List.lookup name
      (texts.map fun (name, text) => ((name, .string text) : String × Value)) =
        (texts.lookup name).map .string := lookup_map_snd ..
  simp only [Section.read?, tableOf, settingValues?, readable, if_true, Option.bind_eq_bind,
    Option.bind_some, List.map_map, foldlM_zip_map, Section.fill?, Function.comp_apply, found]
  congr 1
  funext record setting
  cases texts.lookup setting.name with
  | none => rfl
  | some text => exact setting.read?_string record text

/-- The declared settings get the texts of the sheet. -/
theorem Declaration.read?_tablesOf (d : Declaration σ) (sheet : Sheet) :
    d.read? (.table .header (tablesOf sheet)) = d.fill? sheet := by
  have readable := othersReadable_of_readable (readable_tablesOf sheet)
  have found (header : String) :
      (tablesOf sheet).lookup header = (sheet.lookup header).map tableOf := lookup_map_snd ..
  simp only [Declaration.read?, readable, guard, if_true, Declaration.fill?, found]
  show List.foldlM _ _ _ = _
  congr 1
  funext record part
  cases sheet.lookup part.header with
  | none => rfl
  | some texts => exact part.read?_tableOf record texts

/-- **Documents are read.**  From a document that describes a sheet the library's package
reads the record that the sheet gives. -/
theorem reads_package : package.Reads := by
  intro σ d _ document sheet h
  show (parse? document).bind d.read? = _
  rw [h.parse?, Option.bind_some, d.read?_tablesOf]

end PlayStation.Toml
