import HermesRuntime.ChainPin

/-!
# What the pin covers

The canary goes through the files the pin lists, and the pin lists the files it was made of but
for those named `PIN.json`. So both checks on the pin pass as long as these are unchanged, whatever
else there is in the tree.

* `pathParts_pathText` — a path is found again by its text.
* `mem_genPin` — what the pin lists.
* `pinChecksPass_iff` — when the checks pass.
* `pin_exact_iff` — when they tell a tree from the pinned one.
-/

namespace HermesRuntime

/-! ## Paths -/

theorem toList_pathText (path : List String) :
    (pathText path).toList = ['/'].intercalate (path.map String.toList) := by
  unfold pathText
  rw [String.toList_intercalate]
  rfl

/-- **A path is found again by its text.** -/
theorem pathParts_pathText {path : List String} (hne : path ≠ [])
    (h : ∀ name ∈ path, ValidName name) : pathParts (pathText path) = path := by
  unfold pathParts
  have hslash : ∀ name ∈ path.map String.toList, '/' ∉ name := by
    rw [List.forall_mem_map]
    exact fun name hname => (h name hname).2.2.2
  rw [toList_pathText, List.splitOn_intercalate '/' hslash (by simpa using hne), List.map_map]
  have hsame : path.map (String.ofList ∘ String.toList) = path := by simp [Function.comp_def]
  rw [hsame, List.filter_eq_self]
  intro name hname
  simp [(h name hname).1, (h name hname).2.1]

/-! ## The pin -/

theorem mem_walk {tree : FileTree} {path : List String} {bytes : List UInt8} :
    (path, bytes) ∈ tree.walk ↔ tree.files.lookup path = some bytes := by
  unfold FileTree.walk
  rw [List.mem_filterMap]
  simp only [Finset.mem_sort, Finmap.mem_keys, Option.map_eq_some_iff, Prod.mk.injEq]
  constructor
  · rintro ⟨_, -, _, hlookup, rfl, rfl⟩
    exact hlookup
  · intro h
    exact ⟨path, Finmap.mem_of_lookup_eq_some h, bytes, h, rfl, rfl⟩

/-- The walk comes to no path twice. -/
theorem nodup_walk (tree : FileTree) : (tree.walk.map Prod.fst).Nodup := by
  have hsub : ∀ paths : List (List String), ((paths.filterMap fun path =>
      (tree.files.lookup path).map fun bytes => (path, bytes)).map Prod.fst).Sublist paths := by
    intro paths
    induction paths with
    | nil => exact List.Sublist.refl []
    | cons path paths ih =>
        cases hlookup : tree.files.lookup path with
        | none =>
            rw [List.filterMap_cons_none (by rw [hlookup]; rfl)]
            exact ih.cons path
        | some bytes =>
            rw [List.filterMap_cons_some (b := (path, bytes)) (by rw [hlookup]; rfl)]
            exact ih.cons_cons path
  exact (Finset.sort_nodup _ _).sublist (hsub _)

theorem mem_files_of_walk {tree : FileTree} {e : List String × List UInt8} (h : e ∈ tree.walk) :
    pathParts (pathText e.1) = e.1 := by
  obtain ⟨path, bytes⟩ := e
  obtain ⟨hne, hnames⟩ := tree.valid path (Finmap.mem_of_lookup_eq_some (mem_walk.1 h))
  exact pathParts_pathText hne hnames

/-- **What the pin lists**: the files of the tree, but for those named `PIN.json`. -/
theorem mem_genPin (digest : Digest) (tree : FileTree) {rel want : String} :
    (⟨rel, want⟩ : Sigma fun _ : String => String) ∈
        ((genPin digest tree).files.getD ∅).entries ↔
      ∃ path bytes, tree.files.lookup path = some bytes ∧ path.getLast? ≠ some "PIN.json" ∧
        rel = pathText path ∧ want = digest.hexdigest bytes := by
  have hnodup : ((tree.walk.filter fun e => e.1.getLast? ≠ some "PIN.json").map
      fun e => pathText e.1).Nodup := by
    refine List.Nodup.sublist (List.filter_sublist.map _) ?_
    rw [show (fun e : List String × List UInt8 => pathText e.1) = pathText ∘ Prod.fst from rfl,
      ← List.map_map]
    refine List.Nodup.map_on ?_ (nodup_walk tree)
    intro path hpath path' hpath' htext
    obtain ⟨e, he, rfl⟩ := List.mem_map.1 hpath
    obtain ⟨e', he', rfl⟩ := List.mem_map.1 hpath'
    rw [← mem_files_of_walk he, htext, mem_files_of_walk he']
  unfold genPin
  rw [Option.getD_some, Mapping.mem_foldl_set _ _ hnodup]
  constructor
  · rintro ⟨⟨path, bytes⟩, hmem, heq⟩
    obtain ⟨hwalk, hname⟩ := List.mem_filter.1 hmem
    cases heq
    exact ⟨path, bytes, mem_walk.1 hwalk, of_decide_eq_true hname, rfl, rfl⟩
  · rintro ⟨path, bytes, hlookup, hname, rfl, rfl⟩
    exact ⟨(path, bytes), List.mem_filter.2 ⟨mem_walk.2 hlookup, decide_eq_true hname⟩, rfl⟩

/-! ## The checks -/

/-- Both checks on the pin are made and pass. -/
def PinChecksPass (checks : List Check) : Prop :=
  ∀ label ∈ ["chain_pin_commit", "chain_pin_files"], ∃ c ∈ checks, c.label = label ∧ c.ok = true

/-- The bytes of one tree have the digest of those of the other at the same path only if they are
the same. -/
def NoCollision (digest : Digest) (pinned tree : FileTree) : Prop :=
  ∀ path bytes bytes', pinned.files.lookup path = some bytes →
    tree.files.lookup path = some bytes' →
    digest.hexdigest bytes' = digest.hexdigest bytes → bytes' = bytes

/-- The canary finds the digest of pinned bytes where these are unchanged. -/
theorem canarySha256_eq_iff {digest : Digest} {pinned tree : FileTree}
    (hcol : NoCollision digest pinned tree) {path : List String} {bytes : List UInt8}
    (h : pinned.files.lookup path = some bytes) :
    canarySha256 digest tree (pathText path) = digest.hexdigest bytes ↔
      tree.files.lookup path = some bytes := by
  unfold canarySha256
  rw [mem_files_of_walk (mem_walk.2 h)]
  cases htree : tree.files.lookup path with
  | none =>
      refine iff_of_false (fun heq => ?_) (fun heq => by cases heq)
      have heq' : "missing" = digest.hexdigest bytes := heq
      have hlen := digest.length_eq bytes
      rw [← heq'] at hlen
      exact absurd hlen (by decide)
  | some bytes' =>
      constructor
      · intro heq
        rw [hcol path bytes bytes' h htree heq]
      · intro heq
        rw [Option.some.inj heq]

/-- The checks pass where the commit is the one expected and every file of the pin matches. -/
theorem pinChecksPass_some_iff (digest : Digest) (chainRoot chainPin : String) (tree : FileTree)
    (pin : Pin) : PinChecksPass (chainPinChecks digest chainRoot chainPin tree (some pin)) ↔
      pin.commit = some chainPin ∧
        ∀ e ∈ (pin.files.getD ∅).entries, canarySha256 digest tree e.1 = e.2 := by
  have hfiles : ((pin.files.getD ∅).entries.filter fun e =>
      canarySha256 digest tree e.1 ≠ e.2).map Sigma.fst = [] ↔
        ∀ e ∈ (pin.files.getD ∅).entries, canarySha256 digest tree e.1 = e.2 := by
    rw [List.map_eq_nil_iff, List.filter_eq_nil_iff]
    simp only [ne_eq, decide_eq_true_eq, Decidable.not_not]
  rw [← hfiles]
  unfold PinChecksPass chainPinChecks
  simp

/-- The tree has every pinned file unchanged. -/
def PinnedUnchanged (pinned tree : FileTree) : Prop :=
  ∀ path bytes, pinned.files.lookup path = some bytes → path.getLast? ≠ some "PIN.json" →
    tree.files.lookup path = some bytes

/-- **When the checks pass**: every file of the pinned tree that is not named `PIN.json` is there
unchanged. -/
theorem pinChecksPass_iff {digest : Digest} {pinned tree : FileTree}
    (hcol : NoCollision digest pinned tree) (chainRoot : String) :
    PinChecksPass (chainPinChecks digest chainRoot pinnedCommit tree
      (some (genPin digest pinned))) ↔ PinnedUnchanged pinned tree := by
  have hcommit : (genPin digest pinned).commit = some pinnedCommit := rfl
  rw [pinChecksPass_some_iff, and_iff_right hcommit]
  constructor
  · intro h path bytes hlookup hname
    have hmem := (mem_genPin digest pinned).2 ⟨path, bytes, hlookup, hname, rfl, rfl⟩
    have hfound := h ⟨pathText path, digest.hexdigest bytes⟩ hmem
    exact (canarySha256_eq_iff hcol hlookup).1 hfound
  · intro h e he
    obtain ⟨rel, want⟩ := e
    obtain ⟨path, bytes, hlookup, hname, rfl, rfl⟩ := (mem_genPin digest pinned).1 he
    exact (canarySha256_eq_iff hcol hlookup).2 (h path bytes hlookup hname)

theorem pinnedUnchanged_self (tree : FileTree) : PinnedUnchanged tree tree :=
  fun _ _ h _ => h

/-- **When the checks tell a tree from the pinned one**: where the two are the same, or a pinned
file that is not named `PIN.json` is changed or missing. -/
theorem pin_exact_iff (digest : Digest) (chainRoot : String) (pinned tree : FileTree)
    (hcol : NoCollision digest pinned tree) :
    (PinChecksPass (chainPinChecks digest chainRoot pinnedCommit tree
      (some (genPin digest pinned))) ↔ tree = pinned) ↔
    tree = pinned ∨ ∃ path bytes, pinned.files.lookup path = some bytes ∧
      path.getLast? ≠ some "PIN.json" ∧ tree.files.lookup path ≠ some bytes := by
  have hsame : tree = pinned → PinnedUnchanged pinned tree := by
    rintro rfl
    exact pinnedUnchanged_self tree
  have hchanged : (∃ path bytes, pinned.files.lookup path = some bytes ∧
      path.getLast? ≠ some "PIN.json" ∧ tree.files.lookup path ≠ some bytes) ↔
        ¬ PinnedUnchanged pinned tree := by
    unfold PinnedUnchanged
    push Not
    rfl
  rw [pinChecksPass_iff hcol chainRoot, hchanged]
  constructor
  · intro h
    by_cases hun : PinnedUnchanged pinned tree
    · exact Or.inl (h.1 hun)
    · exact Or.inr hun
  · rintro (heq | hun)
    · exact iff_of_true (hsame heq) heq
    · exact iff_of_false hun fun heq => hun (hsame heq)

/-! ## A changed file and an added one -/

instance (name : String) : Decidable (ValidName name) := inferInstanceAs (Decidable (_ ∧ _))

/-- A tree with no directories. -/
def flatTree (entries : List (String × List UInt8))
    (h : ∀ e ∈ entries, ValidName e.1 ∧ e.1 ≠ "PIN.json") : FileTree where
  files := (entries.map fun e => (⟨[e.1], e.2⟩ : Sigma fun _ : List String =>
    List UInt8)).toFinmap
  valid := by
    intro path hpath
    obtain ⟨bytes, hmem⟩ := (Finmap.mem_list_toFinmap _ _).1 hpath
    obtain ⟨e, he, heq⟩ := List.mem_map.1 hmem
    cases heq
    exact ⟨List.cons_ne_nil _ _, List.forall_mem_singleton.2 (h e he).1⟩
  no_pin := by
    intro hpin
    obtain ⟨bytes, hmem⟩ := (Finmap.mem_list_toFinmap _ _).1 hpin
    obtain ⟨e, he, heq⟩ := List.mem_map.1 hmem
    exact (h e he).2 (List.cons.inj (Sigma.mk.inj heq).1).1

theorem mem_of_lookup_flatTree {entries : List (String × List UInt8)}
    {h : ∀ e ∈ entries, ValidName e.1 ∧ e.1 ≠ "PIN.json"} {path : List String}
    {bytes : List UInt8} (hlookup : (flatTree entries h).files.lookup path = some bytes) :
    ∃ e ∈ entries, path = [e.1] ∧ bytes = e.2 := by
  have hmem := List.of_mem_dlookup
    (Option.mem_def.2 ((Finmap.dlookup_list_toFinmap path _).symm.trans hlookup))
  obtain ⟨e, he, heq⟩ := List.mem_map.1 hmem
  cases heq
  exact ⟨e, he, rfl, rfl⟩

/-- The digests of the empty file and of a file with an `a`. -/
def sampleDigest : Digest where
  hexdigest bytes :=
    if bytes = [] then "e3b0c44298fc1c149afbf4c8996fb92427ae41e4649b934ca495991b7852b855"
    else "ca978112ca1bbdcafac231b39a23dc4da786eff8147c4e72b9807785afee48bb"
  length_eq bytes := by split <;> rfl

/-- One empty file. -/
def emptyFileTree : FileTree := flatTree [("runtime.py", [])] (by decide)

/-- The file with an `a`. -/
def changedTree : FileTree := flatTree [("runtime.py", [97])] (by decide)

/-- The file, and another one next to it. -/
def addedTree : FileTree := flatTree [("runtime.py", []), ("json.py", [])] (by decide)

/-- A change of the file is reported. -/
theorem pin_exact_changed : ¬ PinChecksPass (chainPinChecks sampleDigest "" pinnedCommit changedTree
    (some (genPin sampleDigest emptyFileTree))) := by
  have hcol : NoCollision sampleDigest emptyFileTree changedTree := by
    intro path bytes bytes' h h' hdigest
    obtain ⟨e, he, -, rfl⟩ := mem_of_lookup_flatTree h
    obtain ⟨e', he', -, rfl⟩ := mem_of_lookup_flatTree h'
    rw [List.mem_singleton.1 he, List.mem_singleton.1 he'] at hdigest
    exact absurd hdigest (by decide)
  have hchanged : emptyFileTree.files.lookup ["runtime.py"] = some [] ∧
      changedTree.files.lookup ["runtime.py"] = some [97] := ⟨rfl, rfl⟩
  have hiff := (pin_exact_iff sampleDigest "" emptyFileTree changedTree hcol).2
    (Or.inr ⟨["runtime.py"], [], hchanged.1, by decide, by rw [hchanged.2]; decide⟩)
  intro hpass
  have hlookup := hchanged.2
  rw [hiff.1 hpass, hchanged.1] at hlookup
  cases hlookup

/-- An added file is not. -/
theorem added_not_reported : ¬ ∀ (digest : Digest) (chainRoot : String)
    (pinned tree : FileTree), NoCollision digest pinned tree →
    (PinChecksPass (chainPinChecks digest chainRoot pinnedCommit tree
      (some (genPin digest pinned))) ↔ tree = pinned) := by
  intro h
  have hcol : NoCollision sampleDigest emptyFileTree addedTree := by
    intro path bytes bytes' h h' _
    obtain ⟨e, he, -, rfl⟩ := mem_of_lookup_flatTree h
    obtain ⟨e', he', -, rfl⟩ := mem_of_lookup_flatTree h'
    simp only [List.mem_cons, List.not_mem_nil, or_false] at he he'
    rcases he' with rfl | rfl <;> rw [he]
  have hun : PinnedUnchanged emptyFileTree addedTree := by
    intro path bytes hlookup _
    obtain ⟨e, he, rfl, rfl⟩ := mem_of_lookup_flatTree hlookup
    rw [List.mem_singleton.1 he]
    rfl
  have hsame := (h sampleDigest "" emptyFileTree addedTree hcol).1
    ((pinChecksPass_iff hcol "").2 hun)
  have hadded : addedTree.files.lookup ["json.py"] = some [] := rfl
  rw [hsame] at hadded
  cases hadded

end HermesRuntime
