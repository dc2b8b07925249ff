import SshKeys.Proofs.Export
import SshKeys.Proofs.Session
import SshKeys.Proofs.WrongPassphrase

/-!
# Asking until a key opens

Each prompt takes one line, and asking goes on as long as the passphrase is wrong and
another can be entered.  `askUntilOpen_of_wrong` is this step, and `askUntilOpen_append`
is the run of such steps over any number of wrong passphrases, with a notice for each;
what comes behind them opens the key (`askUntilOpen_opens`), fails otherwise
(`askUntilOpen_fails`), or is the last that can be entered (`askUntilOpen_closed`).

`Session.attempts_had`: **the first passphrase that opens a key is reached within
`maxAttempts` prompts, and the key given with it**, if all those before it fail as wrong
ones do.  By `PrivateKey.load_of_wrong` only an empty one does not, or one whose
plaintext passes the check.  That exception is real: `not_attempts_had` types an empty
line, and then the passphrase.
-/

namespace SshKeys

/-- Where a property fails in a list, there is a first place. -/
theorem exists_first_not {β : Type} {p : β → Prop} {l : List β} (h : ¬∀ x ∈ l, p x) :
    ∃ l₁ x l₂, l = l₁ ++ x :: l₂ ∧ ¬p x ∧ ∀ y ∈ l₁, p y := by
  classical
  have hSome : (l.find? fun x => ¬p x).isSome := by
    rw [List.find?_isSome]
    push Not at h
    simpa only [decide_eq_true_eq] using h
  obtain ⟨x, hFind⟩ := Option.isSome_iff_exists.1 hSome
  obtain ⟨hx, l₁, l₂, hl, hBefore⟩ := List.find?_eq_some_iff_append.1 hFind
  exact ⟨l₁, x, l₂, hl, of_decide_eq_true hx, fun y hy => by simpa using hBefore y hy⟩

namespace Session

variable {α : Type} {attempt : Option String → Except Failure α} {s t : Session} {line : String}
  {before rest : List String} {a : α} {f : Failure} {left : Nat}

/-- What is shown after a wrong passphrase. -/
def wrongNotice : Event :=
  .printed "Ошибка: Неверная парольная фраза\n"

/-- The session when `rest` is left to be typed, after so many wrong passphrases. -/
def afterWrong (s : Session) (wrong : Nat) (rest : List String) : Session :=
  { s with typed := some rest, events := s.events ++ List.replicate wrong wrongNotice }

theorem afterWrong_zero (h : s.typed = some rest) : s.afterWrong 0 rest = s := by
  rw [afterWrong, List.replicate_zero, List.append_nil, ← h]

theorem afterWrong_afterWrong (s : Session) (m n : Nat) (rest rest' : List String) :
    (s.afterWrong m rest).afterWrong n rest' = s.afterWrong (m + n) rest' := by
  simp only [afterWrong, List.append_assoc, List.replicate_append_replicate]

/-! ## One prompt -/

theorem askPassphrase_eq (p : Passphrase) (h : s.typed = some (line :: rest)) :
    (Console.askPassphrase p : SessionM String) s =
      (.ok (typedText line), s.afterWrong 0 rest) := by
  have hGet : (get : SessionM Session) s = (.ok s, s) := rfl
  change typeLine s = _
  rw [typeLine, ExceptState.bind_of_ok hGet, h, afterWrong, List.replicate_zero, List.append_nil]
  rfl

/-- With nothing left to be typed a prompt fails. -/
theorem askPassphrase_nil (p : Passphrase) (h : s.typed = some []) :
    (Console.askPassphrase p : SessionM String) s = (.error (.io .inputEnded), s) := by
  have hGet : (get : SessionM Session) s = (.ok s, s) := rfl
  change typeLine s = _
  rw [typeLine, ExceptState.bind_of_ok hGet, h]
  rfl

theorem askUntilOpen_of_ok (h : s.typed = some (line :: rest))
    (hOpen : attempt (some (typedText line)) = .ok a) (left : Nat) :
    (askUntilOpen attempt (left + 1) : SessionM (α × String)) s =
      (.ok (a, typedText line), s.afterWrong 0 rest) := by
  refine (ExceptState.bind_of_ok (askPassphrase_eq _ h)).trans ?_
  rw [hOpen]
  rfl

/-- A wrong passphrase is passed over. -/
theorem askUntilOpen_of_wrong (h : s.typed = some (line :: rest))
    (hWrong : attempt (some (typedText line)) = .error .decryptionFailed) (hLeft : left ≠ 0) :
    (askUntilOpen attempt (left + 1) : SessionM (α × String)) s =
      (askUntilOpen attempt left : SessionM (α × String)) (s.afterWrong 1 rest) := by
  refine (ExceptState.bind_of_ok (askPassphrase_eq _ h)).trans ?_
  rw [hWrong]
  refine (congrFun (if_pos ⟨rfl, hLeft⟩) _).trans ?_
  exact ExceptState.bind_of_ok (a := ()) (congrArg _ (afterWrong_afterWrong s 0 1 rest rest))

/-- Any other failure ends it, and so does the last one. -/
theorem askUntilOpen_of_error (h : s.typed = some (line :: rest))
    (hFail : attempt (some (typedText line)) = .error f) (hEnd : f = .decryptionFailed → left = 0) :
    (askUntilOpen attempt (left + 1) : SessionM (α × String)) s =
      (.error f, s.afterWrong 0 rest) := by
  refine (ExceptState.bind_of_ok (askPassphrase_eq _ h)).trans ?_
  rw [hFail]
  exact congrFun (if_neg fun hBoth => hBoth.2 (hEnd hBoth.1)) _

/-! ## All prompts -/

/-- Wrong passphrases are passed over as long as another can be entered. -/
theorem askUntilOpen_append (h : s.typed = some (before ++ rest))
    (hWrong : ∀ w ∈ before, attempt (some (typedText w)) = .error .decryptionFailed)
    (hLeft : left ≠ 0) :
    (askUntilOpen attempt (before.length + left) : SessionM (α × String)) s =
      (askUntilOpen attempt left : SessionM (α × String)) (s.afterWrong before.length rest) := by
  induction before generalizing s with
  | nil =>
    rw [List.nil_append] at h
    rw [List.length_nil, Nat.zero_add, afterWrong_zero h]
  | cons w before ih =>
    rw [List.cons_append] at h
    have hStep : (w :: before).length + left = (before.length + left) + 1 := by
      rw [List.length_cons]
      omega
    have hTyped : (s.afterWrong 1 (before ++ rest)).typed = some (before ++ rest) := rfl
    rw [hStep, askUntilOpen_of_wrong h (hWrong w List.mem_cons_self) (by omega),
      ih hTyped fun v hv => hWrong v (List.mem_cons_of_mem w hv), afterWrong_afterWrong,
      List.length_cons, Nat.add_comm 1]

/-- The first line that opens is reached if all before it are wrong. -/
theorem askUntilOpen_opens (h : s.typed = some (before ++ line :: rest))
    (hWrong : ∀ w ∈ before, attempt (some (typedText w)) = .error .decryptionFailed)
    (hOpen : attempt (some (typedText line)) = .ok a) (hCount : before.length < left) :
    (askUntilOpen attempt left : SessionM (α × String)) s =
      (.ok (a, typedText line), s.afterWrong before.length rest) := by
  obtain ⟨n, rfl⟩ := Nat.exists_eq_add_of_lt hCount
  rw [Nat.add_assoc, askUntilOpen_append h hWrong (Nat.succ_ne_zero n),
    askUntilOpen_of_ok rfl hOpen, afterWrong_afterWrong, Nat.add_zero]

/-- And so is the first one that fails otherwise. -/
theorem askUntilOpen_fails (h : s.typed = some (before ++ line :: rest))
    (hWrong : ∀ w ∈ before, attempt (some (typedText w)) = .error .decryptionFailed)
    (hFail : attempt (some (typedText line)) = .error f) (hf : f ≠ .decryptionFailed)
    (hCount : before.length < left) :
    (askUntilOpen attempt left : SessionM (α × String)) s =
      (.error f, s.afterWrong before.length rest) := by
  obtain ⟨n, rfl⟩ := Nat.exists_eq_add_of_lt hCount
  rw [Nat.add_assoc, askUntilOpen_append h hWrong (Nat.succ_ne_zero n),
    askUntilOpen_of_error rfl hFail fun hSame => absurd hSame hf, afterWrong_afterWrong,
    Nat.add_zero]

/-- If no line opens, no more lines are taken than there are prompts. -/
theorem askUntilOpen_closed {lines : List String} (h : s.typed = some lines)
    (hClosed : ∀ line ∈ lines.take left, ∀ a, attempt (some (typedText line)) ≠ .ok a) :
    ∃ f t n, n ≤ left ∧
      (askUntilOpen attempt left : SessionM (α × String)) s = (.error f, t) ∧
      t.typed = some (lines.drop n) := by
  induction left generalizing s lines with
  | zero => exact ⟨_, s, 0, le_rfl, rfl, h⟩
  | succ left ih =>
    cases lines with
    | nil => exact ⟨_, s, 0, Nat.zero_le _, ExceptState.bind_of_error (askPassphrase_nil _ h), h⟩
    | cons line rest =>
      rw [List.take_succ_cons] at hClosed
      cases hAttempt : attempt (some (typedText line)) with
      | ok a => exact absurd hAttempt (hClosed line List.mem_cons_self a)
      | error f =>
        by_cases hGoesOn : f = .decryptionFailed ∧ left ≠ 0
        · obtain ⟨rfl, hLeft⟩ := hGoesOn
          rw [askUntilOpen_of_wrong h hAttempt hLeft]
          obtain ⟨f, t, n, hn, hRun, hTyped⟩ :=
            @ih (s.afterWrong 1 rest) rest rfl fun w hw => hClosed w (List.mem_cons_of_mem line hw)
          exact ⟨f, t, n + 1, by omega, hRun, hTyped⟩
        · have hEnd (hSame : f = .decryptionFailed) : left = 0 := by
            by_contra hLeft
            exact hGoesOn ⟨hSame, hLeft⟩
          exact ⟨f, _, 1, by omega, askUntilOpen_of_error h hAttempt hEnd, rfl⟩

/-! ## Opening a key -/

/-- A key that needs no passphrase, and one that cannot be read, is not asked about. -/
theorem unlock_of_not_required (h : attempt none ≠ .error .passphraseRequired) (s : Session) :
    (unlock attempt : SessionM (α × Option String)) s =
      ((attempt none).map fun a => (a, none), s) := by
  rw [unlock]
  cases hNone : attempt none with
  | ok a => rfl
  | error f =>
    rw [hNone] at h
    cases f <;> first | rfl | exact absurd rfl h

theorem unlock_of_required (h : attempt none = .error .passphraseRequired) :
    (unlock attempt : SessionM (α × Option String)) = (do
      let (a, passphrase) ← askUntilOpen attempt maxAttempts
      pure (a, some passphrase)) := by
  rw [unlock, h]

/-- What a line typed at the prompt makes of the private key in a text. -/
def entered (text line : String) : Except Failure PrivateKey :=
  PrivateKey.load text (some (typedText line))

/-- Opening the private key in a text, with its passphrase if there has to be one. -/
def openKey (text : String) : SessionM (PrivateKey × Option String) :=
  unlock (PrivateKey.load text)

variable {text : String} {k : PrivateKey}

/-- The first line that opens the key does so, or a line before it is empty, or passes the check,
and ends the asking with a failure of its own. -/
theorem openKey_of_first (hRequired : PrivateKey.load text none = .error .passphraseRequired)
    (hTyped : s.typed = some (before ++ line :: rest)) (hCount : before.length < maxAttempts)
    (hOpen : entered text line = .ok k) (hFirst : ∀ w ∈ before, ∀ k', entered text w ≠ .ok k') :
    (∀ w ∈ before, entered text w = .error .decryptionFailed) ∧
        openKey text s = (.ok (k, some (typedText line)), s.afterWrong before.length rest) ∨
      ∃ wrong w more f, before = wrong ++ w :: more ∧
        (typedText w = "" ∨ PassesCheck text (typedText w)) ∧
        entered text w = .error f ∧ f ≠ .decryptionFailed ∧
        openKey text s = (.error f, s.afterWrong wrong.length (more ++ line :: rest)) := by
  rw [openKey, unlock_of_required hRequired]
  by_cases hWrong : ∀ w ∈ before, entered text w = .error .decryptionFailed
  · exact .inl ⟨hWrong, ExceptState.bind_of_ok (askUntilOpen_opens hTyped hWrong hOpen hCount)⟩
  · obtain ⟨wrong, w, more, rfl, hw, hWrong⟩ := exists_first_not hWrong
    refine .inr ?_
    cases hEntered : entered text w with
    | ok k' => exact absurd hEntered (hFirst w (by simp) k')
    | error f =>
      have hf : f ≠ .decryptionFailed := by
        rintro rfl
        exact hw hEntered
      have hPasses : typedText w = "" ∨ PassesCheck text (typedText w) := by
        by_cases hEmpty : typedText w = ""
        · exact .inl hEmpty
        · exact .inr ((PrivateKey.load_of_wrong hRequired hOpen hEmpty hEntered).resolve_left hf)
      rw [List.append_assoc, List.cons_append] at hTyped
      rw [List.length_append] at hCount
      exact ⟨wrong, w, more, f, rfl, hPasses, hEntered, hf, ExceptState.bind_of_error
        (askUntilOpen_fails hTyped hWrong hEntered hf (by omega))⟩

/-- **Every attempt is had up to the first that fails otherwise than by a wrong passphrase.**  The
key is not asked about if it needs no passphrase; else the first line that opens it does so, unless
one before it is empty or passes the check; and if none opens it, no more than `maxAttempts` are
taken. -/
theorem attempts_had (text : String) (s : Session) :
    (PrivateKey.load text none ≠ .error .passphraseRequired →
      openKey text s = ((PrivateKey.load text none).map fun k => (k, none), s)) ∧
    (PrivateKey.load text none = .error .passphraseRequired →
      (∀ before line rest k, s.typed = some (before ++ line :: rest) →
        before.length < maxAttempts → entered text line = .ok k →
        (∀ w ∈ before, ∀ k', entered text w ≠ .ok k') →
          (∀ w ∈ before, entered text w = .error .decryptionFailed) ∧
            openKey text s = (.ok (k, some (typedText line)), s.afterWrong before.length rest) ∨
          ∃ wrong w more f, before = wrong ++ w :: more ∧
            (typedText w = "" ∨ PassesCheck text (typedText w)) ∧
            entered text w = .error f ∧ f ≠ .decryptionFailed ∧
            openKey text s = (.error f, s.afterWrong wrong.length (more ++ line :: rest))) ∧
      ∀ lines, s.typed = some lines →
        (∀ line ∈ lines.take maxAttempts, ∀ k, entered text line ≠ .ok k) →
        ∃ f t n, n ≤ maxAttempts ∧ openKey text s = (.error f, t) ∧
          t.typed = some (lines.drop n)) := by
  refine ⟨fun h => unlock_of_not_required h s, fun hRequired => ⟨?_, ?_⟩⟩
  · intro before line rest k hTyped hCount hOpen hFirst
    exact openKey_of_first hRequired hTyped hCount hOpen hFirst
  · intro lines hTyped hClosed
    obtain ⟨f, t, n, hn, hRun, hLeft⟩ := askUntilOpen_closed hTyped hClosed
    rw [openKey, unlock_of_required hRequired]
    exact ⟨f, t, n, hn, ExceptState.bind_of_error hRun, hLeft⟩

/-! ## A container to open -/

theorem load_none_of_declares {name : String} (h : Declares text name)
    (hNe : name ≠ CipherKind.none.name) :
    PrivateKey.load text none = .error .passphraseRequired := by
  obtain ⟨payload, hUnwrap, hName⟩ := h
  rw [PrivateKey.load_of_unwrap hUnwrap hName, Detection.ofDeclaredName_eq]
  exact if_pos ⟨decide_eq_true hNe, rfl⟩

/-- A key of zeros, written under a passphrase. -/
def sealedZeros : Random String :=
  let pair := KeyPair.ofSeed (Bytes.zeros 32)
  Container.encode pair.blob pair.publicKey.blob (some "p") .aes256Ctr none

theorem exists_sealedZeros : ∃ text, sealedZeros (Bytes.zeros 20) = .ok (text, []) ∧
    PrivateKey.load text none = .error .passphraseRequired ∧
    PrivateKey.load text (some "p") = .ok ⟨KeyPair.ofSeed (Bytes.zeros 32), "", none⟩ := by
  have hConsistent : (KeyPair.ofSeed (Bytes.zeros 32)).Consistent := ⟨List.length_replicate, rfl⟩
  have hSecret : nonEmpty (some "p") = some (Bytes.ofString "p") := nonEmpty_some (by decide)
  have hDrawn : Container.drawn (some "p") = 20 := Container.drawn_of_some hSecret
  have hCipher : Container.cipherFor (some "p") .aes256Ctr = .aes256Ctr :=
    Container.cipherFor_of_some hSecret .aes256Ctr
  have hSource : Container.drawn (some "p") ≤ (Bytes.zeros 20).length := by
    rw [hDrawn]
    decide
  have hSection : Section.length (KeyPair.ofSeed (Bytes.zeros 32)).blob.length
      ("".utf8ByteSize) (Container.cipherFor (some "p") .aes256Ctr).profile.blockSize < 2 ^ 32 := by
    rw [hCipher]
    decide +kernel
  obtain ⟨text, hEncode, hDecode⟩ := Container.exists_encode (hConsistent.valid trivial) (some "p")
    .aes256Ctr none hSource hSection
  rw [hDrawn] at hEncode
  rw [hCipher] at hDecode
  have hNe : CipherKind.aes256Ctr.name ≠ CipherKind.none.name := by decide
  exact ⟨text, hEncode, load_none_of_declares (declares_of_decode hDecode) hNe,
    PrivateKey.load_of_decode hDecode⟩

/-! ## A file to open -/

theorem load_seedFile (passphrase : Option String) :
    PrivateKey.load PemFile.seedFile passphrase =
      if (passphrase.filter (· ≠ "")).isNone then .error .passphraseRequired
      else (do
        PrivateKey.ofPair
          (← PemFile.keyPair .pkcs8 PemFile.seedFile (passphrase.filter (· ≠ ""))) "") := by
  have hTrim : Text.trim PemFile.seedFile = PemFile.seedFile := PemFile.trim_trimmed ..
  have hMarker := PemFile.ofText_seedFile.1
  have hContainer : Text.contains PemFile.seedFile containerMarker = false := by
    rw [PemFile.seedFile, PemFile.contains_trimmed (by simp [PemFile.markers])]
    decide +kernel
  have hFormat : KeyFormat.ofText (Text.trim PemFile.seedFile) = .pkcs8 := by
    rw [KeyFormat.ofText]
    simp only [hTrim, hContainer, hMarker, Bool.or_true]
    rfl
  have hRequired : (Detection.ofPem PemFile.seedFile).passphraseRequired = true := by
    rw [Detection.ofPem, List.any_cons, hMarker, Bool.true_or]
    rfl
  rw [PemFile.load_of_format hFormat (by decide), hTrim]
  simp only [hRequired, true_and]

/-- What the lines typed at a file make of it. -/
theorem entered_seedFile : PrivateKey.load PemFile.seedFile none = .error .passphraseRequired ∧
    entered PemFile.seedFile "q" = .error .decryptionFailed ∧
    entered PemFile.seedFile "p" = .ok ⟨.ofSeed (Bytes.zeros 32), "", none⟩ := by
  have hFirst : (some (typedText "q")).filter (· ≠ "") = some "q" := by decide +kernel
  have hSecond : (some (typedText "p")).filter (· ≠ "") = some "p" := by decide +kernel
  refine ⟨load_seedFile none, ?_, ?_⟩
  · rw [entered, load_seedFile, hFirst, PemFile.keyPair_seedFile_of_wrong]
    rfl
  · rw [entered, load_seedFile, hSecond, PemFile.keyPair_seedFile]
    rfl

/-- The second of three lines is the passphrase; a fourth one is not reached; and nothing is asked
about a text that is no key. -/
theorem attempts_had_after_wrong :
    openKey PemFile.seedFile { typed := some ["q", "p", "r"] } =
        (.ok (⟨.ofSeed (Bytes.zeros 32), "", none⟩, some "p"),
          { typed := some ["r"], events := [wrongNotice] }) ∧
      (∃ f t n, n ≤ 3 ∧
        openKey PemFile.seedFile { typed := some ["q", "q", "q", "p"] } = (.error f, t) ∧
        t.typed = some (["q", "q", "q", "p"].drop n)) ∧
      (openKey "" { typed := some ["p"] }).2 = { typed := some ["p"] } := by
  obtain ⟨hRequired, hWrong, hOpen⟩ := entered_seedFile
  have hClosed (k : PrivateKey) : entered PemFile.seedFile "q" ≠ .ok k := by
    rw [hWrong]
    nofun
  refine ⟨?_, ?_, ?_⟩
  · have hTyped : typedText "p" = "p" := by decide +kernel
    have hBefore : ∀ w ∈ ["q"], ∀ k, entered PemFile.seedFile w ≠ .ok k := by
      simpa only [List.mem_singleton, forall_eq] using hClosed
    have hFirst := ((attempts_had PemFile.seedFile { typed := some ["q", "p", "r"] }).2 hRequired).1
    rcases hFirst ["q"] "p" ["r"] _ rfl (by decide) hOpen hBefore with
      ⟨-, hRun⟩ | ⟨wrong, w, more, f, hSplit, -, hw, hf, -⟩
    · rw [hTyped] at hRun
      exact hRun
    · have hMem : w ∈ ["q"] := hSplit ▸ List.mem_append_right wrong List.mem_cons_self
      rw [List.mem_singleton.1 hMem, hWrong] at hw
      exact absurd (Except.error.inj hw).symm hf
  · have hNone : ∀ line ∈ ["q", "q", "q", "p"].take maxAttempts,
        ∀ k, entered PemFile.seedFile line ≠ .ok k := by
      simpa [maxAttempts] using hClosed
    exact ((attempts_had PemFile.seedFile { typed := some ["q", "q", "q", "p"] }).2 hRequired).2 _
      rfl hNone
  · have hUnasked : PrivateKey.load "" none ≠ .error .passphraseRequired := by decide +kernel
    rw [(attempts_had "" { typed := some ["p"] }).1 hUnasked]

/-- **An empty line ends the asking.**  The second line typed is the passphrase, and it is left. -/
theorem not_attempts_had : ∃ text, sealedZeros (Bytes.zeros 20) = .ok (text, []) ∧
    PrivateKey.load text none = .error .passphraseRequired ∧
    entered text "" = .error .passphraseRequired ∧
    entered text "p" = .ok ⟨KeyPair.ofSeed (Bytes.zeros 32), "", none⟩ ∧
    openKey text { typed := some ["", "p"] } =
      (.error .passphraseRequired, { typed := some ["p"] }) := by
  obtain ⟨text, hText, hRequired, hOpen⟩ := exists_sealedZeros
  have hTyped : typedText "p" = "p" := by decide +kernel
  have hEmpty : typedText "" = "" := by decide +kernel
  have hEntered : entered text "" = .error .passphraseRequired := by
    rw [entered, hEmpty, ← PrivateKey.load_empty, hRequired]
  refine ⟨text, hText, hRequired, hEntered, by rw [entered, hTyped, hOpen], ?_⟩
  rw [openKey, unlock_of_required hRequired]
  exact ExceptState.bind_of_error (askUntilOpen_of_error rfl hEntered Failure.noConfusion)

end Session

end SshKeys
