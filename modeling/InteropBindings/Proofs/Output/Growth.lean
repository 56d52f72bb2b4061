import InteropBindings.Proofs.Output.Aliases

/-!
# Growth of records

Routing is append-only, apart from type aliases, which are replaced in place:

- a declaration leaves the signatures of a record as they are or extends them, and adds a chunk at the end, writes over
  the chunk of its own alias, or does neither (`OutputRecord.add_grows`);
- no record goes away or changes its place, and only that of the declaration is written to (`OutputRecords.send_grows`);
- whatever has been routed, the slots are true to the chunks, so that no write misses its place
  (`OutputRecords.Reachable.wellSlotted`).
-/

namespace InteropBindings

/-- More signatures of a symbol take none away from any symbol. -/
theorem MemberSignatures.of_prefix_of_put (known : MemberSignatures) (name : QualifiedName) (more : List String)
    (q : QualifiedName) : known.of q <+: MemberSignatures.of (known.put name (known.of name ++ more)) q := by
  by_cases hq : name = q
  · subst hq
    rw [of, of, Ledger.get?_put_self]
    exact List.prefix_append ..
  · have hsame : MemberSignatures.of (known.put name (known.of name ++ more)) q = known.of q := by
      unfold of
      rw [Ledger.get?_put_of_ne _ _ hq]
    exact hsame ▸ List.prefix_rfl

/-! ## One record -/

/-- What a declaration does to a record that takes it in. -/
structure OutputRecord.Grows (table : SymbolTable) (l : Located) (r r' : OutputRecord) : Prop where
  /-- No symbol goes away or changes its place. -/
  symbols : r.signatures.keys <+: r'.signatures.keys
  /-- The signatures of a symbol are only added to. -/
  signatures : ∀ q, r.signatures.of q <+: r'.signatures.of q
  /-- A chunk is added, or that of the alias that is declared is replaced, or all stay the same. -/
  chunks : r'.chunks = r.chunks ∨ (∃ c, r'.chunks = r.chunks ++ [c]) ∨
    ∃ (a : AliasDeclaration) (slot : Nat), l.declaration = .alias a ∧ r.slots.get? l.qualifiedName = some slot ∧
      slot < r.chunks.length ∧ r'.chunks = r.chunks.set slot (a.emit (OutputRecords.scopeOf table l))
  /-- No alias changes its place. -/
  slots : ∀ q slot, r.slots.get? q = some slot → r'.slots.get? q = some slot

namespace OutputRecord

variable {table : SymbolTable} {l : Located}

theorem chunks_push_or (r : OutputRecord) (c : Chunk) :
    (r.push c).chunks = r.chunks ∨ (r.push c).chunks = r.chunks ++ [c] := by
  rw [push]
  split
  · exact .inl rfl
  · exact .inr rfl

/-- A record grows by a chunk and more signatures of one symbol. -/
theorem push_grows (r : OutputRecord) (c : Chunk) {known : MemberSignatures}
    (hkeys : r.signatures.keys <+: known.keys) (hknown : ∀ q, r.signatures.of q <+: known.of q) :
    r.Grows table l { r.push c with signatures := known } where
  symbols := hkeys
  signatures := hknown
  chunks := by
    rcases r.chunks_push_or c with h | h
    · exact .inl h
    · exact .inr (.inl ⟨c, h⟩)
  slots q slot h := by
    show (r.push c).slots.get? q = some slot
    rwa [slots_push]

/-- A record grows by an alias, at the end or in the slot of its name. -/
theorem setAlias_grows {r : OutputRecord} (hslots : r.WellSlotted table) {a : AliasDeclaration}
    (hd : l.declaration = .alias a) :
    r.Grows table l (r.setAlias l.qualifiedName (a.emit (OutputRecords.scopeOf table l))) := by
  cases hslot : r.slots.get? l.qualifiedName with
  | none =>
    simp only [setAlias, hslot]
    refine ⟨List.prefix_rfl, fun _ => List.prefix_rfl, .inr (.inl ⟨_, rfl⟩), fun q slot hq => ?_⟩
    have hne : l.qualifiedName ≠ q := by
      rintro rfl
      rw [hslot] at hq
      cases hq
    show (r.slots.put _ _).get? q = some slot
    rwa [Ledger.get?_put_of_ne _ _ hne]
  | some slot =>
    simp only [setAlias, hslot]
    have hlt : slot < r.chunks.length := hslots.lt_length _ _ hslot
    exact ⟨List.prefix_rfl, fun _ => List.prefix_rfl, .inr (.inr ⟨a, slot, hd, hslot, hlt, rfl⟩), fun _ _ hq => hq⟩

/-- **A declaration only adds to a record**, unless it is a type alias that the record has already. -/
theorem add_grows {r : OutputRecord} (hslots : r.WellSlotted table) (l : Located) :
    r.Grows table l (r.add (OutputRecords.scopeOf table l) l.declaration) := by
  cases hd : l.declaration with
  | classDecl c =>
    exact r.push_grows _ (Ledger.keys_prefix_keys_put ..) (MemberSignatures.of_prefix_of_put _ _ _)
  | interface name => exact ⟨List.prefix_rfl, fun _ => List.prefix_rfl, .inl rfl, fun _ _ h => h⟩
  | function f =>
    refine r.push_grows _ ?_ fun q => ?_
    · rw [FunctionDeclaration.signatures]
      split
      · exact List.prefix_rfl
      · exact Ledger.keys_prefix_keys_put ..
    · rw [FunctionDeclaration.signatures]
      split
      · exact List.prefix_rfl
      · exact MemberSignatures.of_prefix_of_put ..
  | «alias» a =>
    have hname : (OutputRecords.scopeOf table l).qualify a.name = l.qualifiedName := qualify_scopeOf (by rw [hd]; rfl)
    show r.Grows table l (r.setAlias _ _)
    rw [hname]
    exact setAlias_grows hslots hd

end OutputRecord

/-! ## All records -/

namespace OutputRecords

variable {table : SymbolTable} {layout : OutputLayout}

/-- The records after any number of declarations, sent one after the other. -/
inductive Reachable (table : SymbolTable) (layout : OutputLayout) : OutputRecords → Prop
  | empty : Reachable table layout .empty
  | send {records : OutputRecords} (l : Located) :
      Reachable table layout records → Reachable table layout (records.send table layout l)

theorem Reachable.foldl_send {records : OutputRecords} (h : Reachable table layout records) (ls : List Located) :
    Reachable table layout (ls.foldl (OutputRecords.send table layout) records) := by
  induction ls generalizing records with
  | nil => exact h
  | cons l ls ih => exact ih (.send l h)

/-- Whatever is routed is reached. -/
theorem reachable_route (table : SymbolTable) (layout : OutputLayout) (files : List DeclarationFile) :
    Reachable table layout (route files table layout) := by
  rw [route_eq_foldl]
  exact Reachable.empty.foldl_send _

/-- What is reached represents some declarations at every path. -/
theorem Reachable.represents {records : OutputRecords} (h : Reachable table layout records) (path : String) :
    ∃ ls, (records.recordAt path).Represents table ls := by
  induction h with
  | empty => exact ⟨[], .empty⟩
  | send l _ ih =>
    obtain ⟨ls, hls⟩ := ih
    rw [recordAt, OutputRecords.send, Ledger.get?_put]
    split
    · next hpath =>
      subst hpath
      exact ⟨ls ++ [l], hls.add l⟩
    · exact ⟨ls, hls⟩

/-- **The slots of reachable records are true to their chunks.** -/
theorem Reachable.wellSlotted {records : OutputRecords} (h : Reachable table layout records) (path : String) :
    (records.recordAt path).WellSlotted table := by
  obtain ⟨ls, hls⟩ := h.represents path
  exact hls.wellSlotted

/-- What a declaration does to the records that it is sent to. -/
structure Grows (table : SymbolTable) (layout : OutputLayout) (l : Located) (records records' : OutputRecords) :
    Prop where
  /-- No record goes away or changes its place. -/
  paths : records.keys <+: records'.keys
  /-- Other records stay as they are. -/
  others : ∀ path, path ≠ layout.pathOf l → records'.get? path = records.get? path
  /-- The record of the declaration takes it in. -/
  record : ∃ r', records'.get? (layout.pathOf l) = some r' ∧ (records.recordAt (layout.pathOf l)).Grows table l r'

/-- **A step**: a declaration that is sent to reachable records only adds to them. -/
theorem send_grows {records : OutputRecords} (h : Reachable table layout records) (l : Located) :
    Grows table layout l records (records.send table layout l) where
  paths := Ledger.keys_prefix_keys_put ..
  others _ hpath := Ledger.get?_put_of_ne _ _ (Ne.symm hpath)
  record := ⟨_, Ledger.get?_put_self .., OutputRecord.add_grows (h.wellSlotted _) l⟩

/-- **Routing is append-only, and type aliases are replaced in place.** Whatever is routed is reachable, and wherever
records are reachable:

- the slots of each record are places of its chunks, different names have different ones, and in the slot of a name
  stands the text of an alias of that name;
- a further declaration only adds to the records, unless it is an alias that has a slot, and leads to reachable records.

Of the declarations `ls` that are sent to the path of a record of a run, the text of the record is that of the blocks.
An alias that is among them has one block: what is declared before its first declaration comes before the block, what is
declared after that comes behind it, and the block has the text of its last declaration. An alias that is not among them
has none. -/
theorem route_append_only_except_aliases (table : SymbolTable) (layout : OutputLayout) :
    (∀ files, Reachable table layout (route files table layout)) ∧
    (∀ records : OutputRecords, Reachable table layout records →
      (∀ path r, records.get? path = some r → r.WellSlotted table) ∧
      ∀ l, Grows table layout l records (records.send table layout l) ∧
        Reachable table layout (records.send table layout l)) ∧
    ∀ files path r, (route files table layout).get? path = some r →
      let ls := sentTo table layout files path
      r.code = String.join ((blocksOf ls).map (Block.text table)) ∧
      ∀ q, (ls.any (Located.aliases q) = false → ∀ b ∈ blocksOf ls, b.isAliasOf q = false) ∧
        (ls.any (Located.aliases q) = true → ∃ before first after last a, ls = before ++ first :: after ∧
          first.aliases q = true ∧ before.any (Located.aliases q) = false ∧
          IsLastAlias ls last a ∧ last.qualifiedName = q ∧
          let pre := (piecesAlong ls [] before).flatten
          let post := (piecesAlong ls (before ++ [first]) after).flatten
          blocksOf ls = pre ++ .alias last a :: post ∧ (∀ b ∈ pre ++ post, b.isAliasOf q = false) ∧
          r.code = String.join (pre.map (Block.text table)) ++ (a.emit (scopeOf table last)).code ++
            String.join (post.map (Block.text table))) := by
  refine ⟨reachable_route table layout, fun records h => ⟨fun path r hr => ?_, fun l => ⟨send_grows h l, h.send l⟩⟩,
    fun files path r hr => ?_⟩
  · have hslots := h.wellSlotted path
    rwa [recordAt, hr] at hslots
  · intro ls
    have hrep : r.Represents table ls := represents_of_get?_route hr
    refine ⟨hrep.code_eq, fun q => ⟨fun hnone b hb => ?_, fun hany => ?_⟩⟩
    · exact not_isAliasOf_of_mem_pieces (fun _ hl => hl) (.inl hnone) hb
    · obtain ⟨before, first, after, hls, hfirst, hbefore⟩ := exists_first_alias hany
      obtain ⟨last, a, hlast, hname, hblocks, hothers⟩ := blocksOf_split_alias after hfirst hbefore
      rw [← hls] at hlast hblocks hothers
      refine ⟨before, first, after, last, a, hls, hfirst, hbefore, hlast, hname, hblocks, hothers, ?_⟩
      rw [hrep.code_eq, hblocks, List.map_append, List.map_cons, String.join_append, String.join_cons,
        String.append_assoc]
      rfl

/-- Files whose declarations all go to one record: an alias, a function, the alias once more, and an alias of another
name. -/
def idFiles : List DeclarationFile :=
  [⟨⟨"in/a.d.ts"⟩, [.namespaceItem "app" [.declaration (.alias ⟨"Id", .keyword .string⟩)]]⟩,
   ⟨⟨"in/b.d.ts"⟩, [.namespaceItem "app"
     [.declaration (.function ⟨"id", [], none⟩), .declaration (.alias ⟨"Id", .array (.reference "ID")⟩),
      .declaration (.alias ⟨"ID", .keyword .number⟩)]]⟩]

/-- The alias keeps its place before the function and has its second text, also when it is declared a third time. -/
theorem route_append_only_except_aliases_idFiles :
    let table := SymbolTable.build idFiles {}
    let layout : OutputLayout := ⟨⟨"in"⟩, ⟨"out"⟩⟩
    let records := route idFiles table layout
    let l : Located := ⟨⟨"in/c.d.ts"⟩, ["app"], .alias ⟨"Id", .keyword .boolean⟩⟩
    ∃ r, records.get? "out/app/id.dart" = some r ∧ r.WellSlotted table ∧
      Grows table layout l records (records.send table layout l) ∧
      r.slots.get? ⟨"app.Id"⟩ = some 0 ∧ r.slots.get? ⟨"app.ID"⟩ = some 2 ∧
      (∃ pre post, r.code = pre ++ "@JS('app.Id')\n@staticInterop\ntypedef Id = JSArray<ID>;\n\n" ++ post) ∧
      r.code = "@JS('app.Id')\n@staticInterop\ntypedef Id = JSArray<ID>;\n\n" ++
        "@JS('app.id')\nexternal JSObject id();\n\n" ++
        "@JS('app.ID')\n@staticInterop\ntypedef ID = JSNumber;\n\n" := by
  intro table layout records l
  obtain ⟨hroute, hstep, hrun⟩ := route_append_only_except_aliases table layout
  obtain ⟨hslots, hsend⟩ := hstep records (hroute idFiles)
  have hsent : sentTo table layout idFiles "out/app/id.dart" ≠ [] := by decide
  have hr := get?_route_of_sentTo_ne_nil table layout hsent
  obtain ⟨hcode, halias⟩ := hrun idFiles _ _ hr
  refine ⟨_, hr, hslots _ _ hr, (hsend l).1, by decide +kernel, by decide +kernel, ?_, ?_⟩
  · have hany : (sentTo table layout idFiles "out/app/id.dart").any (Located.aliases ⟨"app.Id"⟩) = true := by decide
    have htexts : ∀ b ∈ lastAlias ⟨"app.Id"⟩ (sentTo table layout idFiles "out/app/id.dart"),
        b.text table = "@JS('app.Id')\n@staticInterop\ntypedef Id = JSArray<ID>;\n\n" := by decide +kernel
    obtain ⟨_, _, _, last, a, _, _, _, hlast, hname, _, _, hsplit⟩ := (halias ⟨"app.Id"⟩).2 hany
    have htext : (a.emit (scopeOf table last)).code = _ :=
      htexts (.alias last a) (mem_lastAlias_iff.mpr ⟨last, a, hlast, hname, rfl⟩)
    rw [htext] at hsplit
    exact ⟨_, _, hsplit⟩
  · rw [hcode]
    decide +kernel

end OutputRecords

end InteropBindings
