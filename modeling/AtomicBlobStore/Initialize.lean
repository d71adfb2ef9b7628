/-
  `initialize_platform` (`filesystem/mod.rs`): what opening a store does before there are workers.

  It reaches the filesystem above the namespace directory, so its calls are an interface of their
  own (`RootCall`).  The `StoreConfig` of this development has no path in it, because a job only
  names files of the namespace; here the path is returned beside the settings that were validated
  by the caller.
-/
import AtomicBlobStore.Filesystem

namespace AtomicBlobStore

/-- A path, as its characters. -/
abbrev PathName := List Char

/-! ## Paths

  A path is its characters.  Whether it is absolute, and what a component is, depends on the platform;
  only what the function itself does with paths is modelled. -/

/-- What separates the components of a path. -/
def isSeparator : Platform → Char → Bool
  | .unix, c => c == '/'
  | .windows, c => c == '/' || c == '\\'

/-- The separator that `PathBuf::push` writes. -/
def Platform.separator : Platform → Char
  | .unix => '/'
  | .windows => '\\'

/-- `Path::join` with a relative path. -/
def joinPath (platform : Platform) (base path : PathName) : PathName :=
  if base.getLast?.any fun c => !isSeparator platform c then base ++ platform.separator :: path
  else base ++ path

/-- `Path::is_relative`, on Unix. -/
def isRelative (path : PathName) : Bool := path.head? != some '/'

example : joinPath .unix "/srv".toList "blobs".toList = "/srv/blobs".toList ∧
    joinPath .unix "/".toList "blobs".toList = "/blobs".toList := by decide

/-! ## The calls -/

/-- One call of `initialize_platform`.  These are not calls of a job: there are no workers yet. -/
inductive RootCall
  /-- `std::path::absolute`. -/
  | absolute (root : PathName)
  /-- `std::env::current_dir`. -/
  | currentDirectory
  /-- `std::fs::metadata` of the root: is it a directory? -/
  | rootMetadata (root : PathName)
  /-- `std::fs::create_dir`. -/
  | createNamespace (namespacePath : PathName)
  /-- Open the root directory, and sync it. -/
  | openRoot (root : PathName)
  | syncRoot (root : PathName)
  /-- `std::fs::metadata` of the namespace: is it a directory? -/
  | namespaceMetadata (namespacePath : PathName)

/-- The type of answer of each call. -/
abbrev RootCall.Answer : RootCall → Type
  | .absolute _ => Except IoError PathName
  | .currentDirectory => Except IoError PathName
  | .rootMetadata _ => Except IoError Bool
  | .namespaceMetadata _ => Except IoError Bool
  | _ => Except IoError Unit

/-- The calls of `initialize_platform`. -/
abbrev RootInterface : Interface := ⟨RootCall, RootCall.Answer⟩

/-- A part of `initialize_platform`. -/
abbrev RootM (α : Type) := ProgE RootInterface AtomicBlobStoreError α

namespace RootM

/-- One call. -/
def ask (c : RootCall) : RootM c.Answer := ProgE.ask (I := RootInterface) c

/-- `map_err(|source| AtomicBlobStoreError::Io { operation, source })?`. -/
def io {α : Type} (operation : StoreOperation) : Except IoError α → RootM α
  | .ok a => pure a
  | .error source => throw (.io operation source)

end RootM

/-! ## The function

  It makes the namespace directory, or finds it there.  Only the call that made it syncs the root: a
  directory that is found was made by somebody else, who may not have synced it yet. -/

/-- The root, made absolute. -/
def resolveRoot (platform : Platform) (root : PathName) : RootM PathName :=
  match platform with
  | .windows => do
    let root ← RootM.io .normalizeRoot (← RootM.ask (.absolute root))
    pure root
  | .unix =>
    if isRelative root then do
      let currentDirectory ← RootM.io .resolveCurrentDirectory (← RootM.ask .currentDirectory)
      pure (joinPath .unix currentDirectory root)
    else pure root

/-- `sync_directory` of the root, which only Unix does. -/
def syncRootDirectory (platform : Platform) (root : PathName) : RootM Unit :=
  match platform with
  | .windows => pure ()
  | .unix => do
    RootM.io .openRootDirectory (← RootM.ask (.openRoot root))
    RootM.io .syncRootDirectory (← RootM.ask (.syncRoot root))

/-- `initialize_platform`.  An existing namespace is looked at and not synchronized again. -/
def initializePlatform (platform : Platform) (root namespaceComponent : PathName)
    (settings : StoreConfig) : RootM (PathName × StoreConfig) := do
  let root ← resolveRoot platform root
  match ← RootM.ask (.rootMetadata root) with
  | .error source =>
    if source.kind = .notFound then throw .rootDoesNotExist
    else throw (.io .inspectRoot source)
  | .ok false => throw .rootIsNotDirectory
  | .ok true => do
    let namespacePath := joinPath platform root namespaceComponent
    match ← RootM.ask (.createNamespace namespacePath) with
    | .ok () => do
      syncRootDirectory platform root
      pure (namespacePath, settings)
    | .error source =>
      if source.kind = .alreadyExists then do
        match ← RootM.ask (.namespaceMetadata namespacePath) with
        | .error source => throw (.io .inspectNamespace source)
        | .ok false => throw .namespacePathIsNotDirectory
        | .ok true => pure (namespacePath, settings)
      else throw (.io .createNamespace source)

end AtomicBlobStore
