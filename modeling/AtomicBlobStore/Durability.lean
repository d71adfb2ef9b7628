/-
  DURABILITY of what Unix reports as done.

  A change of a directory is durable only after a later successful sync of that directory; until
  then a power loss may bring the old entry back.  `Media` is what is seen together with what is
  sure to survive.  A `Host` opens the store and runs operations on it one after another, any of
  them stopped anywhere, with power losses in between; its log has the media before and after each
  attempt.

  The source syncs only on the branch that itself changed the directory.  A retry finds nothing left
  to change (`NotFound` for a clear, `AlreadyExists` for an open), reports success, and syncs
  nothing.  So:

  1. **One attempt** (`holds_clear`, `holds_open`): success is durable exactly when the attempt made
     the change itself or found it durable already, which is `Episode.Settled`.

  2. **No retries** (`Unbroken`): an entry that is seen to be missing is missing durably, unless an
     earlier attempt was stopped or reported a failed open or sync of a directory.

  3. **A whole run** — `success_is_durable`, and `retried_clear_reverts`, two clears after which the
     blob can come back.

  The source's documentation says that Unix synchronizes after creation and clear.  Read as a
  statement about one attempt that makes its change, this is what the source does; read as a statement
  about what success means, it is refuted by the two runs at the end.  The theorem gives the line
  between the two.
-/
import AtomicBlobStore.Initialize
import AtomicBlobStore.Jobs

namespace AtomicBlobStore

/-! ## What survives

  A file system may write directory entries back in any order, or not at all, until it is told to
  sync.  So what survives is a choice for each entry, and nothing depends on which one is made. -/

/-- What is seen of the namespace, and what a power loss cannot take back: its entries, and that the
    root has an entry for it. -/
structure Media where
  /-- What is seen. -/
  disk : Disk
  /-- The entries that a power loss leaves. -/
  durable : FileName → Option Node
  /-- It leaves the namespace. -/
  namespaceDurable : Bool

/-- Everything that is seen is durable. -/
def Media.synced (disk : Disk) : Media := ⟨disk, disk.entry, disk.isDirectory⟩

/-- What can be found after a power loss: each entry as it was seen or as it was durable, or no
    namespace, if its creation was not durable. -/
def Media.Survives (media : Media) (disk : Disk) : Prop :=
  (media.namespaceDurable = false ∧ disk = .missing) ∨
    disk.isDirectory = media.disk.isDirectory ∧ ∀ name,
      disk.entry name = media.durable name ∨ disk.entry name = media.disk.entry name

/-- What a call makes durable.  A commit that reports no error is durable; one that reports an
    error may be. -/
def Persists : (c : FsCall) → JobWorld → (FileName → Option Node) → c.Answer → JobWorld →
    (FileName → Option Node) → Prop
  | .syncDirectory, _, d, r, w', d' => match r with
    | .ok () => d' = w'.disk.entry
    | .error _ => d' = d
  | .commit, w, d, r, w', d' => match r with
    | .ok () => ∀ name, (Changes .commit w name → d' name = w'.disk.entry name) ∧
        (¬Changes .commit w name → d' name = d name)
    | .error _ => ∀ name, d' name = d name ∨ d' name = w'.disk.entry name ∧ Changes .commit w name
  | _, _, d, _, _, d' => d' = d

/-- The environment of a job, with what is durable. -/
def Persisting (fault : FsCall → IoError → Prop) :
    Environment FsInterface (JobWorld × (FileName → Option Node)) := fun c v r v' =>
  Fs fault c v.1 r v'.1 ∧ Persists c v.1 v.2 r v'.1 v'.2

/-- The environment of `initialize_platform`: any call may fail, and only a sync of the root makes
    the entry of a new namespace durable. -/
def Opening : Environment RootInterface Media
  | .createNamespace _, media, r, media' => match r with
    | .ok () => media.disk = .missing ∧
        media' = ⟨.directory fun _ => none, fun _ => none, false⟩
    | .error e => media' = media ∧ (e.kind = .alreadyExists → media.disk ≠ .missing)
  | .syncRoot _, media, r, media' => match r with
    | .ok () => media' = { media with namespaceDurable := media.disk.isDirectory }
    | .error _ => media' = media
  | .namespaceMetadata _, media, r, media' => media' = media ∧ match r with
    | .ok isDirectory => media.disk.isDirectory = isDirectory
    | .error _ => True
  | _, media, _, media' => media' = media

/-! ## Hosts

  A power loss comes between attempts.  One that comes within an attempt is an attempt that was
  stopped, with the power loss after it. -/

/-- One attempt, with the media before and after it. -/
inductive Episode
  /-- An open that came to its end. -/
  | opened (result : Except AtomicBlobStoreError (PathName × StoreConfig)) (before after : Media)
  /-- An operation that came to its end. -/
  | operated (key : KeyHash) (op : Operation) (result : Except Abort BlockingResult)
      (before after : Media)
  /-- Either of them, stopped on the way. -/
  | stopped (before after : Media)

/-- A machine, and what was attempted on it. -/
structure Host where
  /-- What is seen and what is durable, now. -/
  media : Media
  /-- Every attempt so far. -/
  log : List Episode

section Host

variable (crc32c : Crc32c) (config : StoreConfig) (fault : FsCall → IoError → Prop)

/-- One step: an attempt that ends, one that is stopped anywhere, or a power loss.  Operations come
    one after another: what overlaps is the subject of other modules, and durability is a matter of
    each directory entry by itself. -/
inductive HostStep : Host → Host → Prop
  /-- The store is opened, with success or not. -/
  | opens {h : Host} {n : Nat} {root component : PathName} {media : Media}
      {result : Except AtomicBlobStoreError (PathName × StoreConfig)}
      (hrun : Run Opening n (initializePlatform .unix root component config).run h.media
        (.ret result) media) :
      HostStep h ⟨media, h.log ++ [.opened result h.media media]⟩
  /-- An operation comes to its end. -/
  | operates {h : Host} {n : Nat} (key : KeyHash) (op : Operation) {w : JobWorld}
      {durable : FileName → Option Node} {result : Except Abort BlockingResult}
      (hrun : Run (Persisting fault) n (runOwnedOperation crc32c config .unix
        (blobFilename config.format key) op).run (JobWorld.start h.media.disk, h.media.durable)
        (.ret result) (w, durable)) :
      HostStep h ⟨⟨w.disk, durable, h.media.namespaceDurable⟩, h.log ++
        [.operated key op result h.media ⟨w.disk, durable, h.media.namespaceDurable⟩]⟩
  /-- An open is stopped, wherever it is. -/
  | stopsOpen {h : Host} {n : Nat} {root component : PathName} {media : Media}
      {p : Prog RootInterface (Except AtomicBlobStoreError (PathName × StoreConfig))}
      (hrun : Run Opening n (initializePlatform .unix root component config).run h.media p media) :
      HostStep h ⟨media, h.log ++ [.stopped h.media media]⟩
  /-- An operation is stopped, wherever it is. -/
  | stops {h : Host} {n : Nat} (key : KeyHash) (op : Operation) {w : JobWorld}
      {durable : FileName → Option Node} {p : Prog FsInterface (Except Abort BlockingResult)}
      (hrun : Run (Persisting fault) n (runOwnedOperation crc32c config .unix
        (blobFilename config.format key) op).run (JobWorld.start h.media.disk, h.media.durable)
        p (w, durable)) :
      HostStep h ⟨⟨w.disk, durable, h.media.namespaceDurable⟩, h.log ++
        [.stopped h.media ⟨w.disk, durable, h.media.namespaceDurable⟩]⟩
  /-- The power fails, and what is found afterwards is durable. -/
  | loses {h : Host} {disk : Disk} (hsurvives : h.media.Survives disk) :
      HostStep h ⟨Media.synced disk, h.log⟩

/-- Hosts of a store on Unix, from any media that are in sync. -/
def host : System Host where
  init h := h.media = Media.synced h.media.disk ∧ h.log = []
  step := HostStep crc32c config fault

end Host

/-! ## What is reported, and what is durable

  The properties are those of single attempts in a log, with the media before and after.  Nothing else
  of a host is looked at. -/

section Reports

variable (config : StoreConfig)

/-- A clear or an open that reports success. -/
def Episode.Succeeds : Episode → Prop
  | .opened (.ok _) _ _ => True
  | .operated _ (.clear _) (.ok (.clear (.ok ()))) _ _ => True
  | _ => False

/-- What was reported is durable. -/
def Episode.Durable : Episode → Prop
  | .opened (.ok _) _ after => after.namespaceDurable = true
  | .operated key (.clear _) (.ok (.clear (.ok ()))) _ after =>
    after.durable (blobFilename config.format key) = none
  | _ => True

/-- A clear that starts without a canonical file finds that durable, and so does an open that finds
    a namespace. -/
def Episode.Settled : Episode → Prop
  | .opened _ before _ => before.disk.isDirectory = true → before.namespaceDurable = true
  | .operated key (.clear _) _ before _ =>
    before.disk.entry (blobFilename config.format key) = none →
      before.durable (blobFilename config.format key) = none
  | _ => True

/-- The errors of a failed open or sync of a directory that was just changed. -/
def AtomicBlobStoreError.unsynced : AtomicBlobStoreError → Bool
  | .io .openRootDirectory _ => true
  | .io .syncRootDirectory _ => true
  | .io .openNamespaceDirectory _ => true
  | .io .syncNamespaceDirectory _ => true
  | .quarantineNamespaceSync .. => true
  | _ => false

/-- An attempt that may leave a change that is not durable: it was stopped, or it says so. -/
def Episode.Disturbs : Episode → Prop
  | .opened (.error e) _ _ => e.unsynced = true
  | .operated _ _ (.ok (.clear (.error e))) _ _ => e.unsynced = true
  | .operated _ _ (.ok (.quarantine (.error e))) _ _ => e.unsynced = true
  | .stopped _ _ => True
  | _ => False

end Reports

/-! ## One attempt

  An attempt has the media as it found them, and calls that change what is seen, what is durable, or
  both. The rules of `Holds` are used for the pair. -/

section Rules

variable {config : StoreConfig} {fault : FsCall → IoError → Prop} {key : KeyHash}
  {w : JobWorld} {d : FileName → Option Node} {α : Type}
  {Q : α → JobWorld × (FileName → Option Node) → Prop}
  {E : Abort → JobWorld × (FileName → Option Node) → Prop}
  {C : JobWorld × (FileName → Option Node) → Prop}

/-- The rule of a call. -/
theorem holds_persisting {c : FsCall} {k : c.Answer → Prog FsInterface α}
    {Q : α → JobWorld × (FileName → Option Node) → Prop} (hC : C (w, d))
    (hk : ∀ r w' d', Fs fault c w r w' → Persists c w d r w' d' →
      Holds (Persisting fault) (k r) Q C (w', d')) :
    Holds (Persisting fault) (.call c k) Q C (w, d) :=
  holds_call hC fun r v henv => hk r v.1 v.2 henv.1 henv.2

/-- The rule of a call that changes nothing and syncs nothing. -/
theorem holds_still {c : FsCall} {k : c.Answer → Prog FsInterface α}
    {Q : α → JobWorld × (FileName → Option Node) → Prop} (hc : Looks c)
    (hsync : c ≠ .syncDirectory) (hC : C (w, d))
    (hk : ∀ r, Holds (Persisting fault) (k r) Q C (w, d)) :
    Holds (Persisting fault) (.call c k) Q C (w, d) := by
  refine holds_persisting hC fun r w' d' henv hpersists => ?_
  obtain rfl := looks_idle hc henv
  have hd : d' = d := by
    cases c with
    | syncDirectory => exact absurd rfl hsync
    | commit => exact hc.elim
    | _ => exact hpersists
  rw [hd]
  exact hk r

/-- The check of the namespace changes neither. -/
theorem persisting_ensureNamespaceAvailable {Q : Unit → JobWorld × (FileName → Option Node) → Prop}
    (hC : C (w, d)) (hQ : Q () (w, d)) (hE : ∀ e : AtomicBlobStoreError, E (.error e) (w, d)) :
    HoldsE (Persisting fault) ensureNamespaceAvailable Q E C (w, d) := by
  refine holds_still (c := .metadata) trivial (fun h => nomatch h) hC fun r => ?_
  rcases r with source | _ | _
  · exact holds_ret hC (hE _)
  · exact holds_ret hC (hE _)
  · exact holds_ret hC hQ

/-- The rule of opening and syncing the directory: if both go well, everything that is seen is
    durable. -/
theorem holds_synced {k k' : Except IoError Unit → Prog FsInterface α}
    {Q : α → JobWorld × (FileName → Option Node) → Prop} (hC : C (w, d))
    (hnext : k (.ok ()) = .call .syncDirectory k')
    (hopened : ∀ e, Holds (Persisting fault) (k (.error e)) Q C (w, d))
    (hsynced : ∀ e, Holds (Persisting fault) (k' (.error e)) Q C (w, d))
    (hok : Holds (Persisting fault) (k' (.ok ())) Q C (w, w.disk.entry)) :
    Holds (Persisting fault) (.call .openDirectory k) Q C (w, d) := by
  refine holds_still trivial (fun h => nomatch h) hC fun r => ?_
  cases r with
  | error e => exact hopened e
  | ok u =>
    rw [hnext]
    refine holds_persisting hC fun r w' d' henv hpersists => ?_
    obtain ⟨rfl, -⟩ := henv
    cases r with
    | error e =>
      obtain rfl : d' = d := hpersists
      exact hsynced e
    | ok u =>
      obtain rfl : d' = w'.disk.entry := hpersists
      exact hok

end Rules

section Attempts

variable {config : StoreConfig} {fault : FsCall → IoError → Prop} {key : KeyHash}

/-- Nothing seen has changed, and what was durable is. -/
def Intact (w₀ : JobWorld) (d₀ : FileName → Option Node)
    (v : JobWorld × (FileName → Option Node)) : Prop := v.1.disk = w₀.disk ∧ v.2 = d₀

/-- An attempt that fails says whether it left something that is not durable. -/
def FailsIntact (w₀ : JobWorld) (d₀ : FileName → Option Node) :
    Abort → JobWorld × (FileName → Option Node) → Prop
  | .error e, v => e.unsynced = true ∨ Intact w₀ d₀ v
  | .panic, _ => False

/-- **A clear**: the file went and that is durable, or it was not there and nothing changed. -/
theorem holds_clear {w : JobWorld} {d : FileName → Option Node} :
    HoldsE (Persisting fault) (Unix.clearBlob (blobFilename config.format key))
      (fun _ v => w.disk.entry (blobFilename config.format key) ≠ none ∧
          v.1.disk.entry (blobFilename config.format key) = none ∧ v.2 = v.1.disk.entry ∨
        w.disk.entry (blobFilename config.format key) = none ∧ Intact w d v)
      (FailsIntact w d) (fun _ => True) (w, d) := by
  refine holds_persisting (c := .removeFile _) trivial fun r w' d' henv hpersists => ?_
  obtain rfl : d' = d := hpersists
  cases r with
  | ok u =>
    obtain ⟨hpresent, rfl⟩ := henv
    refine holds_synced trivial rfl (fun e => ?_) (fun e => ?_) ?_
    · exact holds_ret trivial (Or.inl rfl)
    · exact holds_ret trivial (Or.inl rfl)
    · exact holds_ret trivial (Or.inl ⟨hpresent, Disk.entry_set_none, rfl⟩)
  | error e =>
    obtain ⟨rfl, hreason⟩ := henv
    show HoldsE _ (if e.kind = .notFound then _ else _) _ _ _ _
    split
    · rename_i hkind
      refine persisting_ensureNamespaceAvailable trivial ?_ fun e => Or.inr ⟨rfl, rfl⟩
      exact Or.inr ⟨absent_of_lookup hreason hkind, rfl, rfl⟩
    · exact holds_ret trivial (Or.inr ⟨rfl, rfl⟩)

/-- A quarantine: everything that is seen is durable, or nothing changed, or an error says that the
    move may not be durable. -/
theorem holds_quarantine {w : JobWorld} {d : FileName → Option Node} :
    HoldsE (Persisting fault) (Unix.quarantineBlob config (blobFilename config.format key))
      (fun _ v => v.2 = v.1.disk.entry) (FailsIntact w d) (fun _ => True) (w, d) := by
  unfold Unix.quarantineBlob
  rw [stem_blobFilename]
  refine holdsE_bind (holdsE_pure trivial ?_)
  refine holdsE_iterate (fun _ v => v = (w, d)) rfl (fun _ _ _ => trivial) ?_
  rintro - v rfl
  unfold Unix.quarantineTurn
  refine holdsE_bind (holds_still (c := .fill) trivial (fun h => nomatch h) trivial fun r => ?_)
  cases r with
  | error code => exact holds_ret trivial (Or.inr ⟨rfl, rfl⟩)
  | ok bytes =>
    refine holds_ret trivial (holds_persisting (c := .renameNoReplace _ _) trivial
      fun r w' d' henv hpersists => ?_)
    obtain rfl : d' = d := hpersists
    cases r with
    | ok u =>
      refine holds_synced trivial rfl (fun e => ?_) (fun e => ?_) ?_
      · exact holds_ret trivial (Or.inl rfl)
      · exact holds_ret trivial (Or.inl rfl)
      · exact holds_ret trivial rfl
    | error e =>
      obtain ⟨rfl, -⟩ := henv
      show HoldsE _ (if e.kind = .notFound then _ else if e.kind = .alreadyExists then _ else _)
        _ _ _ _
      split
      · refine holdsE_bind (persisting_ensureNamespaceAvailable trivial ?_ fun e => ?_)
        · exact holds_ret trivial (Or.inr ⟨rfl, rfl⟩)
        · exact Or.inr ⟨rfl, rfl⟩
      · split
        · exact holds_ret trivial rfl
        · exact holds_ret trivial (Or.inr ⟨rfl, rfl⟩)

/-- How an open ends: the namespace is new and durable, or it was there and nothing changed; if it
    fails after it made the namespace, it says so. -/
def OpenEnd (media : Media) : Except AtomicBlobStoreError (PathName × StoreConfig) → Media → Prop
  | .ok _, media' => media.disk.isDirectory = false ∧ media' = Media.synced (.directory fun _ => none) ∨
      media.disk.isDirectory = true ∧ media' = media
  | .error e, media' => e.unsynced = true ∨ media' = media

/-- A call of an open that only looks. -/
theorem holds_opening {α : Type} {media : Media} {c : RootCall} {k : c.Answer → Prog RootInterface α}
    {Q : α → Media → Prop} (hlooks : ∀ r media', Opening c media r media' → media' = media)
    (hk : ∀ r, Opening c media r media → Holds Opening (k r) Q (fun _ => True) media) :
    Holds Opening (.call c k) Q (fun _ => True) media := by
  refine holds_call trivial fun r media' henv => ?_
  obtain rfl := hlooks r media' henv
  exact hk r henv

theorem holds_resolveRoot {media : Media} {root : PathName} {Q : PathName → Media → Prop}
    {E : AtomicBlobStoreError → Media → Prop} (hQ : ∀ root, Q root media)
    (hE : ∀ e, E e media) :
    HoldsE Opening (resolveRoot .unix root) Q E (fun _ => True) media := by
  show HoldsE _ (if _ then _ else _) _ _ _ _
  split
  · refine holds_opening (fun _ _ h => h) fun r _ => ?_
    cases r with
    | error e => exact holds_ret trivial (hE _)
    | ok currentDirectory => exact holds_ret trivial (hQ _)
  · exact holds_ret trivial (hQ _)

/-- **An open.** -/
theorem holds_open {media : Media} {root component : PathName} :
    HoldsE Opening (initializePlatform .unix root component config)
      (fun a media' => OpenEnd media (.ok a) media') (fun e media' => OpenEnd media (.error e) media')
      (fun _ => True) media := by
  refine holdsE_bind (holds_resolveRoot (fun root => ?_) fun e => Or.inr rfl)
  refine holds_opening (c := .rootMetadata root) (fun _ _ h => h) fun r _ => ?_
  rcases r with source | _ | _
  · show HoldsE _ (if _ then _ else _) _ _ _ _
    split
    · exact holds_ret trivial (Or.inr rfl)
    · exact holds_ret trivial (Or.inr rfl)
  · exact holds_ret trivial (Or.inr rfl)
  · refine holds_call (I := RootInterface) (c := .createNamespace _) trivial fun r media' henv => ?_
    cases r with
    | ok u =>
      obtain ⟨hmissing, rfl⟩ := henv
      -- a new namespace is durable once the root is synced
      refine holdsE_bind (holds_opening (c := .openRoot root) (fun _ _ h => h) fun r _ => ?_)
      cases r with
      | error e => exact holds_ret trivial (Or.inl rfl)
      | ok u =>
        refine holds_call (I := RootInterface) (c := .syncRoot root) trivial fun r media' henv => ?_
        cases r with
        | error e => exact holds_ret trivial (Or.inl rfl)
        | ok u =>
          obtain rfl : media' = Media.synced (.directory fun _ => none) := henv
          refine holds_ret trivial (holds_ret trivial (Or.inl ⟨?_, rfl⟩))
          rw [hmissing]
          rfl
    | error source =>
      obtain ⟨rfl, -⟩ := henv
      show HoldsE _ (if _ then _ else _) _ _ _ _
      split
      · refine holds_opening (c := .namespaceMetadata _) (fun _ _ h => h.1) fun r henv => ?_
        rcases r with e | _ | _
        · exact holds_ret trivial (Or.inr rfl)
        · exact holds_ret trivial (Or.inr rfl)
        · exact holds_ret trivial (Or.inr ⟨henv.2, rfl⟩)
      · exact holds_ret trivial (Or.inr rfl)

/-- What is seen to be missing is missing durably. -/
def Unbroken (v : JobWorld × (FileName → Option Node)) : Prop :=
  ∀ name, v.1.disk.entry name = none → v.2 name = none

/-- The calls that take no entry away. -/
def Adds : FsCall → Prop
  | .removeFile _ => False
  | .renameNoReplace .. => False
  | .createNew _ => False
  | .writeFile .. => False
  | .moveSaveFile .. => False
  | .moveFile .. => False
  | .deleteFile _ => False
  | _ => True

/-- A call that takes no entry away leaves none that is only durable. -/
theorem unbroken_adds {c : FsCall} (hc : Adds c) {v v' : JobWorld × (FileName → Option Node)}
    {r : c.Answer} (henv : Persisting fault c v r v') (h : Unbroken v) : Unbroken v' := by
  obtain ⟨w, d⟩ := v
  obtain ⟨w', d'⟩ := v'
  obtain ⟨henv, hpersists⟩ := henv
  have hframed := (fs_framed henv).2
  have hsame : ¬(∃ name, Changes c w name) → d' = d → Unbroken (w', d') := by
    rintro hnone rfl name hname
    exact h name ((hframed name fun hc => hnone ⟨name, hc⟩).symm.trans hname)
  cases c with
  | syncDirectory =>
    cases r with
    | ok u =>
      obtain rfl : d' = w'.disk.entry := hpersists
      exact fun name hname => hname
    | error e => exact hsame (fun ⟨name, hc⟩ => hc) hpersists
  | commit =>
    intro name hname
    by_cases hchanges : Changes .commit w name
    · -- the committed entry is there, unless the commit did nothing
      cases r with
      | ok u => exact ((hpersists name).1 hchanges).trans hname
      | error e =>
        rcases hpersists name with hd | ⟨hd, -⟩
        · obtain ⟨content, hwriter⟩ := hchanges
          obtain ⟨path, content', hwriter', -, rfl | ⟨hdirectory, rfl⟩⟩ := henv
          · exact hd.trans (h name hname)
          · obtain ⟨rfl, rfl⟩ := Prod.mk.inj (Option.some.inj (hwriter.symm.trans hwriter'))
            have hset : (w.disk.set name (some (.file content))).entry name = none := hname
            rw [Disk.entry_set_self hdirectory] at hset
            nomatch hset
        · exact hd.trans hname
    · have hentry : w.disk.entry name = none := (hframed name hchanges).symm.trans hname
      cases r with
      | ok u => exact ((hpersists name).2 hchanges).trans (h name hentry)
      | error e =>
        rcases hpersists name with hd | ⟨-, hc⟩
        · exact hd.trans (h name hentry)
        · exact absurd hc hchanges
  | removeFile => exact hc.elim
  | renameNoReplace => exact hc.elim
  | createNew => exact hc.elim
  | writeFile => exact hc.elim
  | moveSaveFile => exact hc.elim
  | moveFile => exact hc.elim
  | deleteFile => exact hc.elim
  | _ => exact hsame (fun ⟨name, hc⟩ => hc) hpersists

end Attempts

/-! ## A whole run

  What is durable after an attempt depends on what was seen before it, and on nothing earlier: an
  entry that is seen and not durable is either made so by a sync of this attempt or was left behind by
  one that said so. -/

section Operated

variable {crc32c : Crc32c} {config : StoreConfig} {fault : FsCall → IoError → Prop} {key : KeyHash}
  {op : Operation} {n : Nat} {w w' : JobWorld} {d d' : FileName → Option Node}
  {result : Except Abort BlockingResult}

/-- Only a clear and a quarantine take entries away. -/
theorem adds_runOwnedOperation (hclear : ∀ sender, op ≠ .clear sender)
    (hquarantine : ∀ sender, op ≠ .quarantine sender) :
    (runOwnedOperation crc32c config .unix (blobFilename config.format key) op).run.Calls Adds := by
  cases op with
  | load sender => exact calls_map (calls_result (calls_loadBlob crc32c config trivial trivial))
  | loadStream chunks acknowledgement sender =>
    exact calls_map (calls_result (calls_loadBlobIntoSender crc32c config trivial trivial
      (fun _ _ => trivial) (fun _ => trivial) trivial))
  | save payload sender =>
    exact calls_map (calls_result (Unix.calls_saveBlob crc32c config (P := Adds) trivial
      (fun _ => trivial) trivial payload))
  | saveStream declaredLen chunks sender =>
    exact calls_map (calls_result (Unix.calls_saveBlobFromReceiver crc32c config (P := Adds) trivial
      (fun _ => trivial) trivial trivial declaredLen))
  | clear sender => exact absurd rfl (hclear sender)
  | inspect sender => exact calls_map (calls_result (calls_inspectBlob trivial trivial))
  | quarantine sender => exact absurd rfl (hquarantine sender)

/-- A clear among the operations, -/
theorem operated_clear {sender : Ticket}
    (hrun : Run (Persisting fault) n (runOwnedOperation crc32c config .unix
      (blobFilename config.format key) (.clear sender)).run (w, d) (.ret result) (w', d')) :
    (result = .ok (.clear (.ok ())) ∧
        (w.disk.entry (blobFilename config.format key) ≠ none ∧
            w'.disk.entry (blobFilename config.format key) = none ∧ d' = w'.disk.entry ∨
          w.disk.entry (blobFilename config.format key) = none ∧ Intact w d (w', d'))) ∨
      ∃ e, result = .ok (.clear (.error e)) ∧ (e.unsynced = true ∨ Intact w d (w', d')) := by
  have hclear : HoldsE (Persisting fault) (runOwnedOperation crc32c config .unix
      (blobFilename config.format key) (.clear sender)) (fun a v => (a = .clear (.ok ()) ∧
        (w.disk.entry (blobFilename config.format key) ≠ none ∧
            v.1.disk.entry (blobFilename config.format key) = none ∧ v.2 = v.1.disk.entry ∨
          w.disk.entry (blobFilename config.format key) = none ∧ Intact w d v)) ∨
      ∃ e, a = .clear (.error e) ∧ (e.unsynced = true ∨ Intact w d v)) (fun _ _ => False)
      (fun _ => True) (w, d) := by
    refine holdsE_map (holds_result (holds_clear.mono (fun a v _ h => ?_) (fun abort v _ h => ?_)
      fun _ h => h))
    · exact Or.inl ⟨rfl, h⟩
    · cases abort with
      | error e => exact Or.inr ⟨e, rfl, h⟩
      | panic => exact h
  have hend := (hclear n _ _ hrun).2 _ rfl
  cases result with
  | error abort => exact hend.elim
  | ok a =>
    rcases hend with ⟨rfl, h⟩ | ⟨e, rfl, h⟩
    · exact Or.inl ⟨rfl, h⟩
    · exact Or.inr ⟨e, rfl, h⟩

/-- and a quarantine. -/
theorem operated_quarantine {sender : Ticket}
    (hrun : Run (Persisting fault) n (runOwnedOperation crc32c config .unix
      (blobFilename config.format key) (.quarantine sender)).run (w, d) (.ret result) (w', d')) :
    d' = w'.disk.entry ∨
      ∃ e, result = .ok (.quarantine (.error e)) ∧ (e.unsynced = true ∨ Intact w d (w', d')) := by
  have hquarantine : HoldsE (Persisting fault) (runOwnedOperation crc32c config .unix
      (blobFilename config.format key) (.quarantine sender)) (fun a v => v.2 = v.1.disk.entry ∨
        ∃ e, a = .quarantine (.error e) ∧ (e.unsynced = true ∨ Intact w d v)) (fun _ _ => False)
      (fun _ => True) (w, d) := by
    refine holdsE_map (holds_result (holds_quarantine.mono (fun a v _ h => ?_)
      (fun abort v _ h => ?_) fun _ h => h))
    · exact Or.inl h
    · cases abort with
      | error e => exact Or.inr ⟨e, rfl, h⟩
      | panic => exact h
  have hend := (hquarantine n _ _ hrun).2 _ rfl
  cases result with
  | error abort => exact hend.elim
  | ok a =>
    rcases hend with h | ⟨e, rfl, h⟩
    · exact Or.inl h
    · exact Or.inr ⟨e, rfl, h⟩

/-- An operation makes no directory and removes none. -/
theorem operated_directory {p : Prog FsInterface (Except Abort BlockingResult)}
    (hrun : Run (Persisting fault) n (runOwnedOperation crc32c config .unix
      (blobFilename config.format key) op).run (w, d) p (w', d')) :
    w'.disk.isDirectory = w.disk.isDirectory := by
  have hkeeps : Holds (Persisting fault) _ _ (fun v => v.1.disk.isDirectory = w.disk.isDirectory)
      (w, d) := holds_of_calls (calls_runOwnedOperation crc32c config key .unix op)
    (fun c _ v r v' henv h => (fs_framed henv.1).1.trans h) rfl
  exact (hkeeps n _ _ hrun).1

/-- **What an operation leaves durable**, if it says that it left nothing else. -/
theorem operated_unbroken {before after : Media}
    (hrun : Run (Persisting fault) n (runOwnedOperation crc32c config .unix
      (blobFilename config.format key) op).run (w, d) (.ret result) (w', d'))
    (hcalm : ¬(Episode.operated key op result before after).Disturbs) (h : Unbroken (w, d)) :
    Unbroken (w', d') := by
  have hsynced : d' = w'.disk.entry → Unbroken (w', d') := by
    rintro rfl name hname
    exact hname
  have hintact : Intact w d (w', d') → Unbroken (w', d') := by
    rintro ⟨hdisk, hd⟩ name hname
    rw [hdisk] at hname
    exact (congrFun hd name).trans (h name hname)
  by_cases hclear : ∃ sender, op = .clear sender
  · obtain ⟨sender, rfl⟩ := hclear
    rcases operated_clear hrun with ⟨-, ⟨-, -, hd⟩ | ⟨-, hu⟩⟩ | ⟨e, rfl, he | hu⟩
    · exact hsynced hd
    · exact hintact hu
    · exact absurd he hcalm
    · exact hintact hu
  · by_cases hquarantine : ∃ sender, op = .quarantine sender
    · obtain ⟨sender, rfl⟩ := hquarantine
      rcases operated_quarantine hrun with hd | ⟨e, rfl, he | hu⟩
      · exact hsynced hd
      · exact absurd he hcalm
      · exact hintact hu
    · have hadds : (runOwnedOperation crc32c config .unix (blobFilename config.format key)
          op).run.Calls Adds := adds_runOwnedOperation (fun sender h => hclear ⟨sender, h⟩)
        fun sender h => hquarantine ⟨sender, h⟩
      have hkeeps : Holds (Persisting fault) _ _ Unbroken (w, d) :=
        holds_of_calls hadds (fun c hc v r v' henv h => unbroken_adds hc henv h) h
      exact (hkeeps n _ _ hrun).1

end Operated

section Hosts

variable {crc32c : Crc32c} {config : StoreConfig} {fault : FsCall → IoError → Prop} {h : Host}

/-- A success is durable exactly if what it found done was. -/
def Episode.Exact (config : StoreConfig) (episode : Episode) : Prop :=
  (episode.Settled config → episode.Durable config) ∧
    (episode.Succeeds → episode.Durable config → episode.Settled config)

/-- For an open, success is durable exactly when the open is settled, -/
theorem exact_opened {n : Nat} {root component : PathName} {before after : Media}
    {result : Except AtomicBlobStoreError (PathName × StoreConfig)}
    (hrun : Run Opening n (initializePlatform .unix root component config).run before
      (.ret result) after) : (Episode.opened result before after).Exact config := by
  have hend := (holds_open n _ _ hrun).2 _ rfl
  cases result with
  | error e => exact ⟨fun _ => trivial, fun hsucceeds => hsucceeds.elim⟩
  | ok a =>
    rcases hend with ⟨hnew, rfl⟩ | ⟨hthere, rfl⟩
    · exact ⟨fun _ => rfl, fun _ _ hdirectory => nomatch hnew.symm.trans hdirectory⟩
    · exact ⟨fun hsettled => hsettled hthere, fun _ hdurable _ => hdurable⟩

/-- and for an operation too. -/
theorem exact_operated {key : KeyHash} {op : Operation} {n : Nat} {before : Media} {w : JobWorld}
    {d : FileName → Option Node} {result : Except Abort BlockingResult} {namespaceDurable : Bool}
    (hrun : Run (Persisting fault) n (runOwnedOperation crc32c config .unix
      (blobFilename config.format key) op).run (JobWorld.start before.disk, before.durable)
      (.ret result) (w, d)) :
    (Episode.operated key op result before ⟨w.disk, d, namespaceDurable⟩).Exact config := by
  by_cases hclear : ∃ sender, op = .clear sender
  · obtain ⟨sender, rfl⟩ := hclear
    rcases operated_clear hrun with ⟨rfl, ⟨hthere, hgone, hd⟩ | ⟨hmissing, -, hd⟩⟩ | ⟨e, rfl, -⟩
    · refine ⟨fun _ => ?_, fun _ _ hmissing => absurd hmissing hthere⟩
      exact (congrFun hd _).trans hgone
    · refine ⟨fun hsettled => ?_, fun _ hdurable _ => ?_⟩
      · exact (congrFun hd _).trans (hsettled hmissing)
      · exact (congrFun hd _).symm.trans hdurable
    · exact ⟨fun _ => trivial, fun hsucceeds => hsucceeds.elim⟩
  · cases op with
    | clear sender => exact absurd ⟨sender, rfl⟩ hclear
    | _ => exact ⟨fun _ => trivial, fun hsucceeds => hsucceeds.elim⟩

/-- What holds of every host. -/
structure Audited (config : StoreConfig) (h : Host) : Prop where
  /-- Every attempt was exact. -/
  precise : ∀ episode ∈ h.log, episode.Exact config
  /-- As long as none may have left anything that is not durable, nothing is, -/
  calm : (∀ episode ∈ h.log, ¬episode.Disturbs) →
    (∀ name, h.media.disk.entry name = none → h.media.durable name = none) ∧
      (h.media.disk.isDirectory = true → h.media.namespaceDurable = true)
  /-- and every attempt found durable what it found. -/
  settled : ∀ front episode later, h.log = front ++ episode :: later →
    (∀ earlier ∈ front, ¬earlier.Disturbs) → episode.Settled config

/-- One attempt more. -/
theorem Audited.concat {media : Media} {log : List Episode} (h : Audited config ⟨media, log⟩)
    {episode : Episode} {media' : Media}
    (hprecise : episode.Exact config)
    (hcalm : ¬episode.Disturbs →
      (∀ name, media.disk.entry name = none → media.durable name = none) →
      (media.disk.isDirectory = true → media.namespaceDurable = true) →
      (∀ name, media'.disk.entry name = none → media'.durable name = none) ∧
        (media'.disk.isDirectory = true → media'.namespaceDurable = true))
    (hsettled : (∀ name, media.disk.entry name = none → media.durable name = none) →
      (media.disk.isDirectory = true → media.namespaceDurable = true) → episode.Settled config) :
    Audited config ⟨media', log ++ [episode]⟩ := by
  constructor
  · intro a ha
    rcases List.mem_append.mp ha with ha | ha
    · exact h.precise a ha
    · obtain rfl := List.mem_singleton.mp ha
      exact hprecise
  · intro hall
    obtain ⟨hentries, hnamespace⟩ := h.calm fun a ha => hall a (List.mem_append_left _ ha)
    exact hcalm (hall episode (List.mem_append_right _ (List.mem_singleton_self _))) hentries
      hnamespace
  · intro front a later hlog hfront
    rcases concat_cases hlog with ⟨-, rfl, rfl⟩ | ⟨rest, -, hlog⟩
    · obtain ⟨hentries, hnamespace⟩ := h.calm hfront
      exact hsettled hentries hnamespace
    · exact h.settled front a rest hlog hfront

/-- **One step keeps a host audited.** -/
theorem Audited.step {h h' : Host} (haudited : Audited config h)
    (hstep : HostStep crc32c config fault h h') : Audited config h' := by
  obtain ⟨media, log⟩ := h
  cases hstep with
  | @opens n root component media' result hrun =>
    have hend := (holds_open n _ _ hrun).2 _ rfl
    refine haudited.concat (exact_opened hrun) (fun hcalm hentries hnamespace => ?_) ?_
    · cases result with
      | error e =>
        rcases hend with he | rfl
        · exact absurd he hcalm
        · exact ⟨hentries, hnamespace⟩
      | ok a =>
        rcases hend with ⟨-, rfl⟩ | ⟨-, rfl⟩
        · exact ⟨fun _ _ => rfl, fun _ => rfl⟩
        · exact ⟨hentries, hnamespace⟩
    · exact fun _ hnamespace => hnamespace
  | @operates n key op w d result hrun =>
    refine haudited.concat (exact_operated hrun) (fun hcalm hentries hnamespace => ⟨?_, ?_⟩) ?_
    · exact operated_unbroken hrun hcalm hentries
    · intro hdirectory
      exact hnamespace ((operated_directory hrun).symm.trans hdirectory)
    · intro hentries _
      cases op with
      | clear sender => exact hentries _
      | _ => trivial
  | stopsOpen hrun =>
    refine haudited.concat ⟨fun _ => trivial, fun hsucceeds => hsucceeds.elim⟩
      (fun hcalm => absurd trivial hcalm) fun _ _ => trivial
  | stops key op hrun =>
    refine haudited.concat ⟨fun _ => trivial, fun hsucceeds => hsucceeds.elim⟩
      (fun hcalm => absurd trivial hcalm) fun _ _ => trivial
  | loses hsurvives =>
    constructor
    · exact haudited.precise
    · exact fun _ => ⟨fun _ hname => hname, fun hdirectory => hdirectory⟩
    · exact haudited.settled

/-- **What Unix reports as done is durable, up to retries.**  In every run of opens, operations,
    interruptions and power losses, a clear or an open that reports success is durable if and only
    if what it found done already was durable; and until an attempt has been stopped, or has
    reported a failed open or sync of a directory, that is so for all of them. -/
theorem success_is_durable {h' : Host} (h : (host crc32c config fault).Reachable h') :
    (∀ episode ∈ h'.log, (episode.Settled config → episode.Durable config) ∧
      (episode.Succeeds → episode.Durable config → episode.Settled config)) ∧
    ∀ front episode later, h'.log = front ++ episode :: later →
      (∀ earlier ∈ front, ¬earlier.Disturbs) → episode.Durable config := by
  have haudited : Audited config h' := by
    refine h.invariant (fun s hinit => ?_) fun s s' _ hs hstep => hs.step hstep
    obtain ⟨hmedia, hlog⟩ := hinit
    constructor
    · intro a ha
      rw [hlog] at ha
      nomatch ha
    · rw [hmedia]
      exact fun _ => ⟨fun _ hname => hname, fun hdirectory => hdirectory⟩
    · intro front a later hsplit
      rw [hlog] at hsplit
      exact absurd hsplit.symm (List.append_ne_nil_of_right_ne_nil _ (List.cons_ne_nil _ _))
  refine ⟨haudited.precise, fun front episode later hlog hfront => ?_⟩
  have hmem : episode ∈ h'.log := by
    rw [hlog]
    exact List.mem_append_right _ (List.mem_cons_self ..)
  exact (haudited.precise episode hmem).1 (haudited.settled front episode later hlog hfront)

end Hosts

/-! ## The retry

  The runs behind the exception: each of them is an attempt that changes the directory and cannot sync
  it, followed by the same attempt once more. -/

section Retry

variable (crc32c : Crc32c) (config : StoreConfig) (fault : FsCall → IoError → Prop) (key : KeyHash)
  {w : JobWorld} {d : FileName → Option Node}

/-- A clear removes the file and cannot open the directory to sync it. -/
theorem returns_clear_unsynced {e : IoError} (hfault : fault .openDirectory e)
    (hthere : w.disk.entry (blobFilename config.format key) ≠ none) (sender : Ticket) :
    Returns (Persisting fault) (runOwnedOperation crc32c config .unix
      (blobFilename config.format key) (.clear sender)).run (w, d)
      (.ok (.clear (.error (.io .openNamespaceDirectory e))))
      ({ w with disk := w.disk.set (blobFilename config.format key) none }, d) := by
  have hremove : Persisting fault (.removeFile (blobFilename config.format key)) (w, d) (.ok ())
      ({ w with disk := w.disk.set (blobFilename config.format key) none }, d) :=
    ⟨⟨hthere, rfl⟩, rfl⟩
  have hopen : ∀ v, Persisting fault .openDirectory v (.error e) v :=
    fun v => ⟨⟨rfl, Or.inl hfault⟩, rfl⟩
  exact returnsE_map (returns_result_error (Returns.call hremove (Returns.call (hopen _) returns_ret)))

/-- A clear that finds nothing to remove succeeds, and changes nothing. -/
theorem returns_clear_absent (hdirectory : w.disk.isDirectory = true)
    (hmissing : w.disk.entry (blobFilename config.format key) = none) (sender : Ticket) :
    Returns (Persisting fault) (runOwnedOperation crc32c config .unix
      (blobFilename config.format key) (.clear sender)).run (w, d) (.ok (.clear (.ok ()))) (w, d) := by
  have hremove : Persisting fault (.removeFile (blobFilename config.format key)) (w, d)
      (.error ⟨.notFound, 2⟩) (w, d) := by
    refine ⟨⟨rfl, ?_⟩, rfl⟩
    show if ErrorKind.notFound = ErrorKind.notFound then _ else _
    rw [if_pos rfl]
    exact hmissing
  have hmetadata : Persisting fault .metadata (w, d) (.ok true) (w, d) := ⟨⟨rfl, hdirectory⟩, rfl⟩
  exact returnsE_map (returns_result (Returns.call hremove (Returns.call hmetadata returns_ret)))

/-- **Two clears**: the first cannot sync what it removed, the second has nothing to remove, and
    reports a success that is not durable. -/
theorem retried_clear {e : IoError} (hfault : fault .openDirectory e) (key : KeyHash) (node : Node) :
    ∃ h, (host crc32c config fault).Reachable h ∧ ∃ front episode, h.log = front ++ [episode] ∧
      episode.Succeeds ∧ ¬episode.Durable config := by
  obtain ⟨disk, hentry, hdirectory⟩ : ∃ disk : Disk,
      disk.entry (blobFilename config.format key) = some node ∧ disk.isDirectory = true :=
    ⟨.directory fun _ => some node, rfl, rfl⟩
  have hthere : disk.entry (blobFilename config.format key) ≠ none := by
    rw [hentry]
    exact fun h => nomatch h
  obtain ⟨n, hfirst⟩ : Returns _ _ (JobWorld.start disk, disk.entry) _ _ :=
    returns_clear_unsynced crc32c config fault key hfault hthere 0
  obtain ⟨m, hsecond⟩ : Returns _ _
      (JobWorld.start (disk.set (blobFilename config.format key) none), disk.entry) _ _ :=
    returns_clear_absent crc32c config fault key (Disk.isDirectory_set.trans hdirectory)
      Disk.entry_set_none 1
  have hinit : (host crc32c config fault).Reachable ⟨Media.synced disk, []⟩ := .init ⟨rfl, rfl⟩
  have hretry := (hinit.step (.operates key (.clear 0) hfirst)).step
    (.operates key (.clear 1) hsecond)
  refine ⟨_, hretry, _, _, rfl, trivial, fun hdurable => ?_⟩
  exact hthere hdurable

/-- The theorem for the two clears: the second finds an absence that is not durable, and the first
    said so. -/
theorem success_is_durable_sample :
    ∃ (h : Host) (front : List Episode) (episode : Episode), h.log = front ++ [episode] ∧
      episode.Succeeds ∧ ¬episode.Settled ⟨testFormat, 16, 1, by decide, by decide⟩ ∧
      ∃ earlier ∈ front, earlier.Disturbs := by
  obtain ⟨h, hreach, front, episode, hlog, hsucceeds, hreverts⟩ := retried_clear crc32cReference
    ⟨testFormat, 16, 1, by decide, by decide⟩ (fun c _ => c = .openDirectory)
    (e := ⟨.other 0, 24⟩) rfl (Vector.replicate 32 0) (.file [7])
  obtain ⟨hprecise, hcalm⟩ := success_is_durable hreach
  have hmem : episode ∈ h.log := by
    rw [hlog]
    exact List.mem_append_right _ (List.mem_singleton_self _)
  refine ⟨h, front, episode, hlog, hsucceeds, fun hsettled => ?_, ?_⟩
  · exact hreverts ((hprecise episode hmem).1 hsettled)
  · by_contra hnone
    exact hreverts (hcalm front episode [] hlog fun earlier hearlier hdisturbs =>
      hnone ⟨earlier, hearlier, hdisturbs⟩)

/-- **Two opens**: the first makes the namespace and cannot sync the root, the second finds it
    there. -/
theorem retried_open :
    ∃ h, (host crc32c config fault).Reachable h ∧ ∃ front episode, h.log = front ++ [episode] ∧
      episode.Succeeds ∧ ¬episode.Durable config := by
  have hroot : ∀ media, Opening (.rootMetadata "/srv".toList) media (.ok true) media := fun _ => rfl
  have hcreate : ∀ path, Opening (.createNamespace path) (Media.synced .missing) (.ok ())
      ⟨.directory fun _ => none, fun _ => none, false⟩ := fun _ => ⟨rfl, rfl⟩
  have hopen : ∀ media, Opening (.openRoot "/srv".toList) media (.error ⟨.other 0, 24⟩) media :=
    fun _ => rfl
  have hexists : ∀ path, Opening (.createNamespace path)
      ⟨.directory fun _ => none, fun _ => none, false⟩ (.error ⟨.alreadyExists, 17⟩)
      ⟨.directory fun _ => none, fun _ => none, false⟩ := fun _ => ⟨rfl, fun _ h => nomatch h⟩
  have hlook : ∀ path, Opening (.namespaceMetadata path)
      ⟨.directory fun _ => none, fun _ => none, false⟩ (.ok true)
      ⟨.directory fun _ => none, fun _ => none, false⟩ := fun _ => ⟨rfl, rfl⟩
  obtain ⟨n, hfirst⟩ : Returns Opening
      (initializePlatform .unix "/srv".toList "blobs".toList config).run (Media.synced .missing)
      (.error (.io .openRootDirectory ⟨.other 0, 24⟩))
      ⟨.directory fun _ => none, fun _ => none, false⟩ :=
    Returns.call (hroot _) (Returns.call (hcreate _) (Returns.call (hopen _) returns_ret))
  obtain ⟨m, hsecond⟩ : Returns Opening
      (initializePlatform .unix "/srv".toList "blobs".toList config).run
      ⟨.directory fun _ => none, fun _ => none, false⟩ (.ok ("/srv/blobs".toList, config))
      ⟨.directory fun _ => none, fun _ => none, false⟩ :=
    Returns.call (hroot _) (Returns.call (hexists _) (Returns.call (hlook _) returns_ret))
  have hinit : (host crc32c config fault).Reachable ⟨Media.synced .missing, []⟩ := .init ⟨rfl, rfl⟩
  have hretry := (hinit.step (.opens hfirst)).step (.opens hsecond)
  exact ⟨_, hretry, _, _, rfl, trivial, fun hdurable => nomatch hdurable⟩

/-- **A clear that reports success need not be durable, nor need an open.**  The clear is the second of
    two where the first could not open the directory; the open is the second of two where the first
    could not sync the root, and no operation on a blob fails. -/
theorem retried_clear_reverts :
    (¬∀ (fault : FsCall → IoError → Prop) (config : StoreConfig) (h : Host),
      (host crc32cReference config fault).Reachable h →
        ∀ episode ∈ h.log, episode.Durable config) ∧
    ¬∀ (config : StoreConfig) (h : Host), (host crc32cReference config fun _ _ => False).Reachable h →
      ∀ episode ∈ h.log, episode.Durable config := by
  constructor
  · intro hclaim
    obtain ⟨h, hreach, front, episode, hlog, -, hreverts⟩ := retried_clear crc32cReference
      ⟨testFormat, 16, 1, by decide, by decide⟩ (fun c _ => c = .openDirectory)
      (e := ⟨.other 0, 24⟩) rfl (Vector.replicate 32 0) (.file [7])
    refine hreverts (hclaim _ _ h hreach episode ?_)
    rw [hlog]
    exact List.mem_append_right _ (List.mem_singleton_self _)
  · intro hclaim
    obtain ⟨h, hreach, front, episode, hlog, -, hreverts⟩ := retried_open crc32cReference
      ⟨testFormat, 16, 1, by decide, by decide⟩ fun _ _ => False
    refine hreverts (hclaim _ h hreach episode ?_)
    rw [hlog]
    exact List.mem_append_right _ (List.mem_singleton_self _)

end Retry

end AtomicBlobStore
