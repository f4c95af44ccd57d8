import BlockFlow.Disk
import BlockFlow.Proofs.Path

/-!
# Reading what was written

A text can be stored at a path if the folders above it can be made and the path is that of no
folder (`exists_storeText_eq`): names lead on along the folders that were made for them
(`leadsOn_createFoldersFrom`). A text that was put into a file is what is read at the same path
afterwards (`read?_of_write`, `read?_of_storeText`): the file takes the place of no folder, so that
the path leads where it led.
-/

set_option autoImplicit false

namespace BlockFlow

namespace Disk

variable {d d' : Disk} {folder place start : List String} {path text : String} {e : DiskEntry}
  {names : List String}

theorem entry?_put_self (hplace : place ≠ []) : entry? (d.put place e) place = some e := by
  simp [put, entry?, hplace]

theorem entry?_put_of_ne {other : List String} (h : other ≠ place) :
    entry? (d.put place e) other = d.entry? other := by
  unfold entry? put
  split
  · rfl
  · congr 1
    rw [List.find?_cons_of_neg (by simpa using Ne.symm h), List.find?_filter]
    congr 1
    funext entry
    by_cases hentry : entry.1 = other
    · simp [hentry, h]
    · simp [hentry]

/-- A path that leads to a place still does if what is put somewhere takes the place of no
folder. -/
theorem locateFrom_put (hfolder : d.entry? place ≠ some .folder) {names start found : List String}
    (h : d.locateFrom start names = .ok found) :
    (d.put place e).locateFrom start names = .ok found := by
  induction names generalizing start with
  | nil => exact h
  | cons name names ih =>
    rw [locateFrom] at h ⊢
    split at h
    case h_1 hstart =>
      have hne : start ≠ place := fun heq => hfolder (heq ▸ hstart)
      rw [entry?_put_of_ne hne, hstart]
      exact ih h
    case h_2 => exact nomatch h
    case h_3 => exact nomatch h

/-- What was written to a path is read there. -/
theorem read?_of_write (h : d.write folder path text = .ok d') :
    d'.read? folder path = some text.toUTF8 := by
  unfold write at h
  split at h
  · exact nomatch h
  · split at h
    · exact nomatch h
    · rename_i place hlocate
      split at h
      · exact nomatch h
      · rename_i hfolder
        obtain rfl := Except.ok.inj h
        have hplace : place ≠ [] := fun hnil => hfolder (by rw [hnil, entry?, if_pos rfl])
        have hfound : (d.put place (.file text.toUTF8)).locate folder path = .ok place := by
          unfold locate at hlocate ⊢
          split at hlocate
          · exact nomatch hlocate
          · rename_i hpath
            rw [if_neg hpath]
            exact locateFrom_put (fun h => hfolder h) hlocate
        rw [read?, hfound]
        dsimp only
        rw [entry?_put_self hplace]

/-! ## Folders that are made -/

/-- Names lead from one folder to another, the last one included. -/
def LeadsOn (d : Disk) (start : List String) : List String → Prop
  | [] => d.entry? start = some .folder
  | name :: names => d.entry? start = some .folder ∧ d.LeadsOn (enter start name) names

theorem LeadsOn.entry?_start (h : d.LeadsOn start names) : d.entry? start = some .folder := by
  cases names with
  | nil => exact h
  | cons name names => exact h.1

/-- Names that lead nowhere else make no difference. -/
theorem leadsOn_moves : d.LeadsOn start (Path.moves names) ↔ d.LeadsOn start names := by
  induction names generalizing start with
  | nil => exact Iff.rfl
  | cons name names ih =>
    by_cases hname : name = "."
    · have hstays : enter start name = start := if_pos hname
      rw [Path.moves, List.filter_cons_of_neg (by simpa using hname), ← Path.moves, ih, LeadsOn,
        hstays]
      exact ⟨fun h => ⟨h.entry?_start, h⟩, And.right⟩
    · rw [Path.moves, List.filter_cons_of_pos (by simpa using hname), ← Path.moves, LeadsOn, ih]
      exact Iff.rfl

/-- Folders that exist stay where others are made. -/
theorem entry?_createFoldersFrom (h : createFoldersFrom start names d = .ok d')
    (hfolder : d.entry? place = some .folder) : d'.entry? place = some .folder := by
  induction names generalizing start d with
  | nil =>
    cases h
    exact hfolder
  | cons name names ih =>
    rw [createFoldersFrom] at h
    split at h
    · cases h
    · exact ih h hfolder
    · next hmissing =>
      refine ih h ?_
      rw [entry?_put_of_ne fun heq => ?_]
      · exact hfolder
      · rw [heq, hmissing] at hfolder
        cases hfolder

/-- The names lead on where the folders on their way were made. -/
theorem leadsOn_createFoldersFrom (h : createFoldersFrom start names d = .ok d')
    (hstart : d.entry? start = some .folder) : d'.LeadsOn start names := by
  induction names generalizing start d with
  | nil =>
    cases h
    exact hstart
  | cons name names ih =>
    refine ⟨entry?_createFoldersFrom h hstart, ?_⟩
    rw [createFoldersFrom] at h
    split at h
    · cases h
    · next hfolder => exact ih h hfolder
    · next hmissing =>
      -- the root is a folder already, so that it is never made
      refine ih h (entry?_put_self fun hroot => ?_)
      rw [hroot, entry?, if_pos rfl] at hmissing
      cases hmissing

theorem LeadsOn.exists_locateFrom_eq (h : d.LeadsOn start names) (name : String) :
    ∃ place, d.locateFrom start (names ++ [name]) = .ok place := by
  induction names generalizing start with
  | nil =>
    refine ⟨enter start name, ?_⟩
    rw [List.nil_append, locateFrom, show d.entry? start = some .folder from h]
    rfl
  | cons first names ih =>
    rw [List.cons_append, locateFrom, h.1]
    exact ih h.2

/-- A path that ends in a name leads somewhere once the folders above it are made. -/
theorem exists_locate_eq {init : List String} {name parent : String}
    (hnames : Path.names path = init ++ [name]) (hname : name ≠ ".")
    (hfolder : d.entry? folder = some .folder) (hparent : Path.parent? path = some parent)
    (hmade : d.createFolders folder parent = .ok d') :
    ∃ place, d'.locate folder path = .ok place := by
  obtain ⟨_, hsome, habsolute, hmoves⟩ := Path.exists_parent?_eq hnames hname
  cases hparent.symm.trans hsome
  have hbase : d.entry? (base folder parent) = some .folder := by
    unfold base
    split
    · exact if_pos rfl
    · exact hfolder
  -- the path and that of its folder lead along the same names
  have hleads : d'.LeadsOn (base folder path) init := by
    rw [← leadsOn_moves, ← hmoves, leadsOn_moves]
    unfold base
    rw [← habsolute]
    exact leadsOn_createFoldersFrom hmade hbase
  have hpath : path ≠ "" := by
    rintro rfl
    have hlast : ["."] = [name] :=
      List.append_inj_right' (show [] ++ ["."] = init ++ [name] from hnames) rfl
    exact hname (List.cons.inj hlast).1.symm
  rw [locate, if_neg hpath, hnames]
  exact hleads.exists_locateFrom_eq name

theorem write_of_locate (hends : Path.namesFolder path = false)
    (hlocate : d.locate folder path = .ok place) (hfile : d.entry? place ≠ some .folder)
    (text : String) : d.write folder path text = .ok (d.put place (.file text.toUTF8)) := by
  rw [write, hends, if_neg Bool.false_ne_true, hlocate]
  dsimp only
  split
  · next hfolder => exact absurd hfolder hfile
  · rfl

end Disk

namespace Session

variable {s s' : Session} {path text : String}

theorem read?_of_writeFile
    (h : (Host.writeFile path text : StateM Session (Except IoError Unit)) s = (.ok (), s')) :
    s'.disk.read? s'.folder path = some text.toUTF8 := by
  have hchange : change (fun folder d => d.write folder path text) s = (.ok (), s') := h
  unfold change at hchange
  split at hchange
  · exact nomatch hchange
  · rename_i disk hwrite
    obtain rfl : { s with disk } = s' := congrArg Prod.snd hchange
    exact Disk.read?_of_write hwrite

/-- A text that was stored at a path is read there. -/
theorem read?_of_storeText
    (h : (storeText path text : StateM Session (Except IoError Unit)) s = (.ok (), s')) :
    s'.disk.read? s'.folder path = some text.toUTF8 := by
  unfold storeText at h
  cases hparent : Path.parent? path with
  | none =>
    rw [hparent] at h
    exact read?_of_writeFile h
  | some parent =>
    rw [hparent] at h
    -- the folders are made first, and the text is written only if that worked
    match hmade : (Host.createFolders parent : StateM Session (Except IoError Unit)) s with
    | (.ok (), made) =>
      simp only [bind, StateT.bind, hmade] at h
      exact read?_of_writeFile h
    | (.error e, made) =>
      simp only [bind, StateT.bind, hmade] at h
      have hfails : Except.error e = Except.ok () := congrArg Prod.fst h
      exact nomatch hfails

/-- A text can be stored at a path: the program runs in a folder, the path ends in a name, the
folders above it can be made, and the path then is that of no folder. -/
structure CanStore (s : Session) (path : String) : Prop where
  runs : s.disk.entry? s.folder = some .folder
  named : ∃ init name, Path.names path = init ++ [name] ∧ name ≠ "."
  made : ∃ parent made, Path.parent? path = some parent ∧
    s.disk.createFolders s.folder parent = .ok made ∧
      ∀ place, made.locate s.folder path = .ok place → made.entry? place ≠ some .folder

/-- A text is stored at a path where it can be. -/
theorem CanStore.exists_storeText_eq (h : s.CanStore path) (text : String) :
    ∃ s', (storeText path text : StateM Session (Except IoError Unit)) s = (.ok (), s') := by
  obtain ⟨init, name, hnames, hname⟩ := h.named
  obtain ⟨parent, made, hparent, hmade, hfile⟩ := h.made
  obtain ⟨place, hlocate⟩ := Disk.exists_locate_eq hnames hname h.runs hparent hmade
  have hends := Path.namesFolder_eq_false hnames hname
  have hwrite := Disk.write_of_locate hends hlocate (hfile place hlocate) text
  have hfolders : (Host.createFolders parent : StateM Session (Except IoError Unit)) s =
      (.ok (), { s with disk := made }) := by
    show change (fun folder d => d.createFolders folder parent) s = _
    rw [change, hmade]
  have htext : (Host.writeFile path text : StateM Session (Except IoError Unit))
      { s with disk := made } =
        (.ok (), { s with disk := made.put place (.file text.toUTF8) }) := by
    show change (fun folder d => d.write folder path text) { s with disk := made } = _
    rw [change, hwrite]
  refine ⟨{ s with disk := made.put place (.file text.toUTF8) }, ?_⟩
  rw [storeText, hparent]
  simp only [bind, StateT.bind, hfolders, htext]

end Session

end BlockFlow
