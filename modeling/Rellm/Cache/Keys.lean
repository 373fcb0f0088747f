import Rellm.Foundation.Paths
import Rellm.Media.Conversion
import Rellm.Protos.Ids

/-!
# The keys of stored media

An upload is stored under a key of its uploader, a new unique id and the name that the client gave
the file. Copies are stored under that key with their conversion and the time as a suffix. The keys
are the paths of the cached files, so the client's name may add directories to them.
-/

namespace Rellm.Cache

open Foundation Media Ids

/-- A random id in its usual notation. -/
@[ext]
structure Uuid where
  text : List Char
  length_eq : text.length = 36
  allowed : ∀ c ∈ text, c.isAlphanum = true ∨ c = '-'

/-- What the key of an upload is made of: the directory of its uploader, its id and its filename. -/
structure Original where
  folder : Name
  uuid : Uuid
  filename : List Char
  folder_noSlash : '/' ∉ folder
  at_mem : '@' ∈ folder

namespace Original

variable (original : Original)

/-- The part of the key after the directory of the uploader. -/
def name : List Char := original.uuid.text ++ '-' :: original.filename

def path : String :=
  String.ofList ("user".toList ++ '/' :: (original.folder ++ '/' :: original.name))

/-- The directory of the uploader. -/
def folderLocation : Location := ["user".toList, original.folder]

/-- The directories that the filename adds to the key, as they are walked. -/
def passed : List Location :=
  Foundation.passed original.folderLocation (directoryNames original.name)

/-- Where the cached files of the upload and its copies are. -/
def directory : Location := resolve original.folderLocation (directoryNames original.name)

/-- The directory that nothing else has: the one that the id starts, if the filename adds any. -/
def home : Location := original.folderLocation ++ (directoryNames original.name).take 1

/-- The cached file of a copy, by what is appended to the key. -/
def file (suffix : List Char) : Location :=
  original.directory ++ [fileName original.name ++ suffix]

end Original

/-- A request to store a file. -/
structure Upload where
  userId : Int64
  host : Name
  username : Name
  uuid : Uuid
  filename : List Char
  host_noSlash : '/' ∉ host
  username_noSlash : '/' ∉ username

theorem base58_noSlash (bytes : List UInt8) : '/' ∉ (base58.encode bytes).toList := by
  have halphabet : base58Alphabet.all (· != '/') = true := by decide +kernel
  have hchar (digit : Nat) : base58Char digit ≠ '/' := by
    rw [base58Char, List.getD_eq_getElem?_getD]
    cases hdigit : base58Alphabet[digit]? with
    | none => decide
    | some c =>
      have hc := List.all_eq_true.mp halphabet c (List.mem_of_getElem? hdigit)
      exact bne_iff_ne.mp hc
  intro hslash
  change '/' ∈ (base58Encode bytes).toList at hslash
  rw [base58Encode, String.toList_ofList, List.mem_map] at hslash
  obtain ⟨digit, _, hdigit⟩ := hslash
  exact hchar digit hdigit

theorem toProtoId64_noSlash {id : Int64} {text : String} (h : toProtoId64 base58 id = some text) :
    '/' ∉ text.toList := by
  rw [toProtoId64] at h
  obtain ⟨offsetValue, _, h⟩ := Option.bind_eq_some_iff.mp h
  split at h
  · rw [toProtoId32] at h
    obtain ⟨offsetValue32, _, h⟩ := Option.bind_eq_some_iff.mp h
    cases h
    exact base58_noSlash _
  · cases h
    exact base58_noSlash _

/-- What the key of an upload is made of, unless the id of the user overflows. -/
def Upload.original (upload : Upload) : Option Original :=
  match h : toProtoId64 base58 upload.userId with
  | none => none
  | some id => some
    { folder := id.toList ++ '@' :: (upload.host ++ '-' :: upload.username)
      uuid := upload.uuid
      filename := upload.filename
      folder_noSlash := by
        have hid := toProtoId64_noSlash h
        simp [hid, upload.host_noSlash, upload.username_noSlash]
      at_mem := by simp }

section Versions

/-- The characters of a version. -/
def IsVersion (version : List Char) : Prop := isVersionSuffix (String.ofList version) = true

instance (version : List Char) : Decidable (IsVersion version) := by
  unfold IsVersion
  infer_instance

theorem IsVersion.notMem {version : List Char} (h : IsVersion version) {c : Char}
    (hc : c.isDigit = false) : c ∉ version := by
  rw [IsVersion, isVersionSuffix, Bool.and_eq_true, String.toList_ofList, List.all_eq_true] at h
  intro hmem
  have hdigit := h.2 c hmem
  rw [hc] at hdigit
  cases hdigit

/-- A text that is split at the last occurrence of a character. -/
theorem rsplitOnce_of_eq {separator : Char} {text : String} {head tail : List Char}
    (h : text.toList = head ++ separator :: tail) (htail : separator ∉ tail) :
    rsplitOnce separator text = some (String.ofList head, String.ofList tail) := by
  have hwhile : (text.toList.reverse.takeWhile fun c => c ≠ separator).reverse = tail := by
    rw [h, List.reverse_append, List.reverse_cons, List.append_assoc,
      List.takeWhile_append_of_pos]
    · simp
    · intro c hc
      rw [List.mem_reverse] at hc
      exact decide_eq_true fun heq => htail (heq ▸ hc)
  have hlength : text.toList.length = head.length + 1 + tail.length := by
    rw [h, List.length_append, List.length_cons]
    omega
  rw [rsplitOnce, hwhile, if_pos (by omega)]
  have htake : text.toList.length - tail.length - 1 = head.length := by omega
  rw [htake, h, List.take_left]

theorem rsplitOnce_of_notMem {separator : Char} {text : String} (h : separator ∉ text.toList) :
    rsplitOnce separator text = none := by
  have hwhile : (text.toList.reverse.takeWhile fun c => c ≠ separator).reverse = text.toList := by
    rw [List.takeWhile_eq_self_iff.mpr, List.reverse_reverse]
    intro c hc
    rw [List.mem_reverse] at hc
    exact decide_eq_true fun heq => h (heq ▸ hc)
  rw [rsplitOnce, hwhile, if_neg (Nat.lt_irrefl _)]

/-- The last occurrence of a character in a text. -/
theorem exists_last_split {c : Char} {text : List Char} (h : c ∈ text) :
    ∃ head tail, text = head ++ c :: tail ∧ c ∉ tail := by
  induction text with
  | nil => cases h
  | cons d text ih =>
    by_cases hmem : c ∈ text
    · obtain ⟨head, tail, htext, htail⟩ := ih hmem
      exact ⟨d :: head, tail, by rw [htext, List.cons_append], htail⟩
    · obtain rfl := (List.mem_cons.mp h).resolve_right hmem
      exact ⟨[], text, rfl, hmem⟩

/-- The last occurrence of a character splits a text in one way. -/
theorem eq_of_last_split {c : Char} {head tail head' tail' : List Char}
    (h : head ++ c :: tail = head' ++ c :: tail') (htail : c ∉ tail) (htail' : c ∉ tail') :
    head = head' ∧ tail = tail' := by
  have hlist : (String.ofList (head ++ c :: tail)).toList = head ++ c :: tail :=
    String.toList_ofList
  have heq := (rsplitOnce_of_eq hlist htail).symm.trans (rsplitOnce_of_eq (hlist.trans h) htail')
  rw [Option.some.injEq, Prod.mk.injEq] at heq
  exact ⟨String.ofList_injective heq.1, String.ofList_injective heq.2⟩

/-- A path has a base if it ends in a version. -/
theorem objectPathVersionBase_eq_some {path base : String} :
    objectPathVersionBase path = some base ↔
      ∃ version, IsVersion version ∧ path.toList = base.toList ++ '.' :: version := by
  constructor
  · intro h
    have hdot : '.' ∈ path.toList := by
      by_contra hdot
      rw [objectPathVersionBase, rsplitOnce_of_notMem hdot] at h
      cases h
    obtain ⟨head, tail, hsplit, htail⟩ := exists_last_split hdot
    rw [objectPathVersionBase, rsplitOnce_of_eq hsplit htail, Option.filter_some] at h
    split at h
    · rename_i hversion
      cases h
      exact ⟨tail, hversion, by rw [hsplit, String.toList_ofList]⟩
    · cases h
  · rintro ⟨version, hversion, hpath⟩
    have hsuffix : isVersionSuffix (String.ofList version) = true := hversion
    rw [objectPathVersionBase, rsplitOnce_of_eq hpath (hversion.notMem rfl), Option.filter_some]
    dsimp only
    rw [if_pos hsuffix, Option.map_some, String.ofList_toList]

end Versions

section Suffixes

/-- Nothing of the rest belongs to a key that a dot ends. -/
def AtDot (rest : List Char) : Prop := rest = [] ∨ ∃ later, rest = '.' :: later

theorem AtDot.append {rest later : List Char} (hrest : AtDot rest) (hlater : AtDot later) :
    AtDot (rest ++ later) := by
  rcases hrest with rfl | ⟨_, rfl⟩
  · exact hlater
  · exact .inr ⟨_, List.cons_append⟩

/-- What is appended to the key of the original in the key of a copy: its conversion, and versions
that may follow. -/
def CopySuffix (conversion : MediaConversion) (suffix : List Char) : Prop :=
  if conversion = .original then suffix = []
  else ∃ rest, suffix = '.' :: (conversion.key.toList ++ rest) ∧ AtDot rest ∧ '/' ∉ rest

theorem copySuffix_original : CopySuffix .original [] := by
  rw [CopySuffix, if_pos rfl]

theorem copySuffix_of_ne {conversion : MediaConversion} (hne : conversion ≠ .original)
    {rest : List Char} (hrest : AtDot rest) (hslash : '/' ∉ rest) :
    CopySuffix conversion ('.' :: (conversion.key.toList ++ rest)) := by
  rw [CopySuffix, if_neg hne]
  exact ⟨rest, rfl, hrest, hslash⟩

theorem key_allowed (conversion : MediaConversion) :
    '.' ∉ conversion.key.toList ∧ '/' ∉ conversion.key.toList ∧
      ¬ IsVersion conversion.key.toList := by
  cases conversion <;> decide

theorem key_injective {conversion conversion' : MediaConversion}
    (h : conversion.key = conversion'.key) : conversion = conversion' := by
  cases conversion <;> cases conversion' <;> first | rfl | exact absurd h (by decide)

/-- A key that ends at a dot is read off the text that it starts. -/
theorem takeWhile_of_atDot {key rest : List Char} (hkey : '.' ∉ key) (hrest : AtDot rest) :
    (key ++ rest).takeWhile (fun c => c ≠ '.') = key := by
  have hall : ∀ c ∈ key, decide (c ≠ '.') = true := by
    rintro c hc
    apply decide_eq_true
    rintro rfl
    exact hkey hc
  rw [List.takeWhile_append_of_pos hall]
  rcases hrest with rfl | ⟨later, rfl⟩
  · rw [List.takeWhile_nil, List.append_nil]
  · rw [List.takeWhile_cons_of_neg (by simp), List.append_nil]

theorem takeWhile_append_dot (head tail : List Char) :
    (head ++ '.' :: tail).takeWhile (fun c => c ≠ '.') = head.takeWhile fun c => c ≠ '.' := by
  induction head with
  | nil => rfl
  | cons c head ih =>
    rw [List.cons_append, List.takeWhile_cons, List.takeWhile_cons, ih]

theorem atDot_dropWhile (text : List Char) : AtDot (text.dropWhile fun c => c ≠ '.') := by
  cases h : text.dropWhile fun c => c ≠ '.' with
  | nil => exact .inl rfl
  | cons c later =>
    have hc := List.head_dropWhile_not (fun c => decide (c ≠ '.')) (l := text) (by rw [h]; simp)
    simp only [h, List.head_cons, decide_eq_false_iff_not, not_not] at hc
    exact .inr ⟨later, by rw [hc]⟩

namespace CopySuffix

variable {conversion conversion' : MediaConversion} {suffix suffix' : List Char}

theorem noSlash (h : CopySuffix conversion suffix) : '/' ∉ suffix := by
  rw [CopySuffix] at h
  split at h
  · rw [h]
    exact List.not_mem_nil
  · obtain ⟨rest, rfl, _, hrest⟩ := h
    simp [(key_allowed conversion).2.1, hrest]

theorem atDot (h : CopySuffix conversion suffix) : AtDot suffix := by
  rw [CopySuffix] at h
  split at h
  · exact .inl h
  · obtain ⟨rest, rfl, _⟩ := h
    exact .inr ⟨_, rfl⟩

theorem eq_original (h : CopySuffix conversion []) : conversion = .original := by
  by_contra hne
  rw [CopySuffix, if_neg hne] at h
  obtain ⟨rest, heq, _⟩ := h
  cases heq

/-- What follows a suffix after a dot leaves its conversion. -/
theorem conversion_eq (h : CopySuffix conversion suffix) (h' : CopySuffix conversion' suffix')
    (hne : conversion ≠ .original) {rest : List Char} (hrest : AtDot rest)
    (heq : suffix' = suffix ++ rest) : conversion = conversion' := by
  rw [CopySuffix, if_neg hne] at h
  obtain ⟨later, rfl, hlater, _⟩ := h
  rw [CopySuffix] at h'
  split at h'
  · rw [h'] at heq
    cases heq
  · obtain ⟨later', hsuffix, hlater', _⟩ := h'
    rw [hsuffix, List.cons_append, List.append_assoc] at heq
    have hkeys := congrArg (List.takeWhile fun c => c ≠ '.') (List.cons.inj heq).2
    rw [takeWhile_of_atDot (key_allowed _).1 hlater',
      takeWhile_of_atDot (key_allowed _).1 (hlater.append hrest)] at hkeys
    exact key_injective (String.toList_injective hkeys.symm)

/-- More may follow after a dot. -/
theorem append_atDot (h : CopySuffix conversion suffix) (hne : conversion ≠ .original)
    {rest : List Char} (hrest : AtDot rest) (hslash : '/' ∉ rest) :
    CopySuffix conversion (suffix ++ rest) := by
  rw [CopySuffix, if_neg hne] at h
  obtain ⟨later, rfl, hlater, hslash'⟩ := h
  rw [List.cons_append, List.append_assoc]
  refine copySuffix_of_ne hne (hlater.append hrest) ?_
  simp [hslash, hslash']

/-- A version at the end of a copy's key follows its conversion. -/
theorem exists_unversioned (h : CopySuffix conversion suffix) (hne : conversion ≠ .original)
    {name base version : List Char} (hversion : IsVersion version)
    (heq : name ++ suffix = base ++ '.' :: version) :
    ∃ unversioned, CopySuffix conversion unversioned ∧ base = name ++ unversioned ∧
      suffix = unversioned ++ '.' :: version := by
  have hslash := h.noSlash
  rw [CopySuffix, if_neg hne] at h
  obtain ⟨rest, hsuffix, hrest, _⟩ := h
  have hdot : '.' ∈ suffix := hsuffix ▸ List.mem_cons_self
  obtain ⟨head, tail, hsplit, htail⟩ := exists_last_split hdot
  rw [hsplit, ← List.append_assoc] at heq
  obtain ⟨hbase, rfl⟩ := eq_of_last_split heq htail (hversion.notMem rfl)
  refine ⟨head, ?_, hbase.symm, hsplit⟩
  rw [hsuffix] at hsplit
  cases head with
  | nil =>
    -- the key itself would be the version
    obtain rfl := (List.cons.inj hsplit).2
    rcases hrest with rfl | ⟨later, rfl⟩
    · rw [List.append_nil] at hversion
      exact absurd hversion (key_allowed conversion).2.2
    · exact absurd (List.mem_append_right _ List.mem_cons_self) htail
  | cons c head =>
    rw [List.cons_append] at hsplit
    obtain ⟨rfl, hhead⟩ := List.cons.inj hsplit
    have hkey := congrArg (List.takeWhile fun c => c ≠ '.') hhead
    rw [takeWhile_of_atDot (key_allowed _).1 hrest, takeWhile_append_dot] at hkey
    have hparts := List.takeWhile_append_dropWhile (p := fun c => decide (c ≠ '.')) (l := head)
    rw [← hkey] at hparts
    rw [← hparts]
    refine copySuffix_of_ne hne (atDot_dropWhile head) fun hmem => hslash ?_
    have hmem := List.dropWhile_sublist (fun c => decide (c ≠ '.')) |>.subset hmem
    rw [hsuffix, hsplit]
    exact List.mem_cons_of_mem _ (List.mem_append_left _ hmem)

/-- A new version goes to the key of the copy that it is a version of. -/
theorem versionedObjectPath (h : CopySuffix conversion suffix) (hne : conversion ≠ .original)
    {path : String} {name : List Char} (hpath : path.toList = name ++ suffix) (nowMs : Nat) :
    ∃ suffix', CopySuffix conversion suffix' ∧
      (Media.versionedObjectPath path nowMs).toList = name ++ suffix' := by
  have hnow : AtDot ('.' :: (toString nowMs).toList) ∧ '/' ∉ '.' :: (toString nowMs).toList := by
    refine ⟨.inr ⟨_, rfl⟩, ?_⟩
    rw [List.mem_cons, Nat.toString_eq_repr, Nat.toList_repr]
    rintro (heq | hmem)
    · exact absurd heq (by decide)
    · exact absurd (Nat.isDigit_of_mem_toDigits (by decide) (by decide) hmem) (by decide)
  have hlist (base : String) : (base ++ "." ++ toString nowMs).toList =
      base.toList ++ '.' :: (toString nowMs).toList := by
    rw [String.toList_append, String.toList_append, List.append_assoc]
    rfl
  rw [Media.versionedObjectPath, hlist]
  cases hbase : objectPathVersionBase path with
  | none =>
    rw [Option.getD_none, hpath, List.append_assoc]
    exact ⟨_, h.append_atDot hne hnow.1 hnow.2, rfl⟩
  | some base =>
    obtain ⟨version, hversion, heq⟩ := objectPathVersionBase_eq_some.mp hbase
    obtain ⟨unversioned, hunversioned, hbase, _⟩ :=
      h.exists_unversioned hne hversion (hpath.symm.trans heq)
    rw [Option.getD_some, hbase, List.append_assoc]
    exact ⟨_, hunversioned.append_atDot hne hnow.1 hnow.2, rfl⟩

/-- The first key of a copy. -/
theorem derivedObjectPath {conversion : MediaConversion} (hne : conversion ≠ .original)
    {originalPath : String} {name : List Char} (hpath : originalPath.toList = name)
    (nowMs : Nat) : ∃ suffix, CopySuffix conversion suffix ∧
      (Media.derivedObjectPath originalPath conversion.key nowMs).toList = name ++ suffix := by
  refine (copySuffix_of_ne hne (.inl rfl) List.not_mem_nil).versionedObjectPath hne ?_ nowMs
  rw [String.toList_append, String.toList_append, hpath, List.append_nil, List.append_assoc]
  rfl

/-- A version of what has the name of a copy's key without its version is one of that copy. -/
theorem conversion_eq_of_base (h : CopySuffix conversion suffix)
    (h' : CopySuffix conversion' suffix') {name base version rest : List Char}
    (hversion : IsVersion version) (heq : name ++ suffix = base ++ '.' :: version)
    (hrest : rest = [] ∨ ∃ version', IsVersion version' ∧ rest = '.' :: version')
    (heq' : name ++ suffix' = base ++ rest) : conversion = conversion' := by
  by_cases hne : conversion = .original
  · subst hne
    rw [CopySuffix, if_pos rfl] at h
    rw [h, List.append_nil] at heq
    rw [heq, List.append_assoc, List.append_cancel_left_eq] at heq'
    rcases hrest with rfl | ⟨version', hversion', rfl⟩
    · cases heq'
    · -- what follows the version is a part of a version, so it is empty
      have htail := (List.cons.inj heq').2
      rcases h'.atDot with rfl | ⟨later, rfl⟩
      · exact h'.eq_original.symm
      · refine absurd ?_ (hversion'.notMem (c := '.') rfl)
        rw [← htail]
        exact List.mem_append_right _ List.mem_cons_self
  · obtain ⟨unversioned, hunversioned, rfl, _⟩ := h.exists_unversioned hne hversion heq
    rw [List.append_assoc, List.append_cancel_left_eq] at heq'
    refine hunversioned.conversion_eq h' hne ?_ heq'
    rcases hrest with rfl | ⟨version', _, rfl⟩
    · exact .inl rfl
    · exact .inr ⟨_, rfl⟩

end CopySuffix

end Suffixes

end Rellm.Cache
