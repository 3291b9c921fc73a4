import EntityForge.Proofs.Archive.Headers

/-!
# The directory read back

Behind the records of files stand their headers, and behind these the record that says where the
headers start. It is the last place from which a directory can be read (`directoryAt?_eq_none`), its
headers are read one after the other (`headersFrom_flatMap`), and as their names differ none
replaces another (`foldl_putHeader`). So the headers of an archive are those of its files
(`headers?_layout`).
-/

namespace EntityForge.Archive.Zip

/-! ## Headers one after the other -/

theorem headersFrom_flatMap {bytes : ByteArray} {d : Directory} (hbase : d.base = 0)
    {fs : List StoredFile} (hfits : ∀ f ∈ fs, f.Fits) (hbelow : ∀ f ∈ fs, f.offset < d.start)
    {place : Nat} (h : hasAt bytes place (fs.flatMap (·.header)) = true) (done : List Header) :
    headersFrom bytes d place done fs.length =
      some (done.reverse ++ fs.map (·.entryHeader)) := by
  induction fs generalizing place done with
  | nil => simp [headersFrom]
  | cons f fs ih =>
    rw [List.flatMap_cons, hasAt_append, Bool.and_eq_true] at h
    have hrest := ih (fun g hg => hfits g (.tail _ hg)) (fun g hg => hbelow g (.tail _ hg)) h.2
      (f.entryHeader :: done)
    have hoffset : f.entryHeader.offset < d.start := hbelow f (.head _)
    rw [List.length_cons, headersFrom, hbase, StoredFile.at?_header (hfits f (.head _)) h.1]
    dsimp only
    rw [if_pos hoffset, hrest, List.reverse_cons, List.append_assoc]
    rfl

theorem putHeader_of_not_mem {h : Header} {done : List Header} (hn : h.name ∉ done.map (·.name)) :
    putHeader h done = done ++ [h] := by
  induction done with
  | nil => rfl
  | cons k done ih =>
    rw [List.map_cons, List.mem_cons, not_or] at hn
    rw [putHeader, if_neg (by simpa using Ne.symm hn.1), ih hn.2]
    rfl

/-- Headers of different names do not replace each other. -/
theorem foldl_putHeader (done : List Header) {hs : List Header} (h : ((done ++ hs).map (·.name)).Nodup) :
    hs.foldl (fun done h => putHeader h done) done = done ++ hs := by
  induction hs generalizing done with
  | nil => simp
  | cons k hs ih =>
    have hk : k.name ∉ done.map (·.name) := by
      rw [List.map_append, List.map_cons, List.nodup_append] at h
      exact fun hmem => h.2.2 _ hmem _ (.head _) rfl
    rw [List.foldl_cons, putHeader_of_not_mem hk, ih _ (by simpa using h), List.append_assoc]
    rfl

/-! ## The record at the end -/

theorem length_endRecords {count : Nat} (hcount : count < 0xFFFF) (size offset : Nat) :
    (endRecords count size offset).length = 22 := by
  rw [endRecords, if_neg (by omega)]
  simp only [endSignature, List.length_append, List.length_cons, List.length_nil,
    littleEndian_length]

theorem at?_endRecords {bytes : ByteArray} {place count size offset : Nat} (hcount : count < 0xFFFF)
    (hoffset : offset < 0x100000000)
    (h : hasAt bytes place (endRecords count size offset) = true) :
    EndRecord.at? bytes place = some ⟨place, 0, 0, count, count, offset⟩ := by
  have hlength : endSignature.length = 4 := rfl
  have hend := hasAt_le_size h
    (List.ne_nil_of_length_pos (by rw [length_endRecords hcount]; omega))
  rw [length_endRecords hcount] at hend
  rw [endRecords, if_neg (by omega), Nat.min_eq_left (by omega)] at h
  simp only [List.nil_append, List.append_assoc, hasAt_append, littleEndian_length, hlength,
    Bool.and_eq_true, Nat.add_assoc, Nat.reduceAdd] at h
  obtain ⟨hsignature, hdisk, hdirectory, hhere, hall, -, hplace, hcomment⟩ := h
  have hcountLt : count < Nat.pow 256 2 := Nat.lt_trans hcount (by decide)
  unfold EndRecord.at?
  simp only [guard, hsignature, natAt?_littleEndian (by decide) hdisk,
    natAt?_littleEndian (by decide) hdirectory, natAt?_littleEndian hcountLt hhere,
    natAt?_littleEndian hcountLt hall, natAt?_littleEndian hoffset hplace,
    natAt?_littleEndian (by decide) hcomment, if_true, Option.pure_def, Option.bind_eq_bind,
    Option.bind_some, Nat.add_zero, hend]

/-- There is no record so near to the end. -/
theorem directoryAt?_eq_none {bytes : ByteArray} {place : Nat} (h : bytes.size < place + 22) :
    directoryAt? bytes place = none := by
  have hcomment : ∀ n, ¬ place + 22 + n ≤ bytes.size := fun n => by omega
  have hfailure : (failure : Option Unit) = none := rfl
  have hat : EndRecord.at? bytes place = none := by
    simp [EndRecord.at?, guard, hcomment, hfailure]
  rw [directoryAt?, hat]
  rfl

/-- A pattern that stands at the start of a range is found there. -/
theorem findWithin_start {bytes : ByteArray} {pattern : List UInt8} {start stop : Nat}
    (h : hasAt bytes start pattern = true) (hstop : start + pattern.length ≤ stop) :
    findWithin bytes pattern start stop = some start := by
  obtain ⟨n, hn⟩ : ∃ n, stop + 1 - pattern.length - start = n + 1 :=
    ⟨stop - pattern.length - start, by omega⟩
  rw [findWithin, hn, findForward, if_pos h]

/-- A record of 32 bits describes the headers that stand before it. -/
theorem directoryAt?_endRecords {bytes : ByteArray} {place : Nat} {fs : List StoredFile}
    {offset : Nat} (hcount : fs.length < 0xFFFF) (hoffset : offset < wide)
    (hheaders : hasAt bytes offset (fs.flatMap (·.header)) = true)
    (hplace : place = offset + (fs.flatMap (·.header)).length)
    (hat : hasAt bytes place (endRecords fs.length (place - offset) offset) = true) :
    directoryAt? bytes place = some ⟨0, offset, fs.length⟩ := by
  have hwide : ¬ (fs.length = 0xFFFF ∨ offset = wide) := by omega
  rw [directoryAt?, at?_endRecords hcount (Nat.lt_trans hoffset (by decide)) hat]
  dsimp only [Option.bind_eq_bind, Option.bind_some]
  rw [if_neg hwide]
  unfold EndRecord.directory?
  cases fs with
  | nil => simp [hplace, guard]
  | cons f fs =>
    have hlength : f.header.length + (fs.flatMap (·.header)).length = place - offset := by
      rw [hplace, List.flatMap_cons, List.length_append, Nat.add_sub_cancel_left]
    have hheader := f.length_header
    have hfirst : hasAt bytes offset headerSignature = true := by
      simp only [List.flatMap_cons, StoredFile.header, List.append_assoc, hasAt_append,
        Bool.and_eq_true] at hheaders
      exact hheaders.1
    have hfound : findWithin bytes headerSignature offset place = some offset :=
      findWithin_start hfirst (by rw [show headerSignature.length = 4 from rfl]; omega)
    have hbefore : ¬ place ≤ offset := by omega
    simp [hbefore, hfound, guard]

/-! ## The search from the end -/

/-- The last record that describes a directory whose headers can be read is the one that counts. -/
theorem headersBelow_eq {bytes : ByteArray} {place n : Nat} {d : Directory} {hs : List Header}
    (hd : directoryAt? bytes place = some d)
    (hread : headersFrom bytes d d.start [] d.count = some hs) (hn : place < n)
    (hnone : ∀ k, place < k → k < n → directoryAt? bytes k = none) :
    headersBelow bytes n = some hs := by
  induction n with
  | zero => omega
  | succ n ih =>
    rcases Nat.lt_succ_iff_lt_or_eq.1 hn with hlt | rfl
    · rw [headersBelow, hnone n hlt (Nat.lt_succ_self n)]
      exact ih hlt fun k hk hkn => hnone k hk (Nat.lt_succ_of_lt hkn)
    · simp only [headersBelow, hd, Option.bind_eq_bind, Option.bind_some, hread]

/-- An archive whose headers stand between the records of its files and the record at the end has
the headers of its files. -/
theorem headers?_layout {body : ByteArray} (fs : List StoredFile) (hfits : ∀ f ∈ fs, f.Fits)
    (hbelow : ∀ f ∈ fs, f.offset < body.size) (hnames : (fs.map (·.name)).Nodup)
    (hcount : fs.length < 0xFFFF) (hsize : body.size < wide) :
    headers? (body ++ ofBytes (fs.flatMap (·.header))
        ++ ofBytes (endRecords fs.length (fs.flatMap (·.header)).length body.size)) =
      some (fs.map (·.entryHeader)) := by
  set directory := fs.flatMap (·.header) with hdirectory
  set records := endRecords fs.length directory.length body.size with hrecords
  set bytes := body ++ ofBytes directory ++ ofBytes records with hbytes
  have hend : bytes.size = body.size + directory.length + 22 := by
    rw [hbytes, ByteArray.size_append, ByteArray.size_append, size_ofBytes, size_ofBytes, hrecords,
      length_endRecords hcount]
  have hheaders : hasAt bytes body.size directory = true := hasAt_append_left (hasAt_end _ _)
  have hrecord : hasAt bytes (body.size + directory.length) records = true := by
    have h := hasAt_end (body ++ ofBytes directory) records
    rwa [ByteArray.size_append, size_ofBytes] at h
  have hplace : directoryAt? bytes (body.size + directory.length) =
      some ⟨0, body.size, fs.length⟩ :=
    directoryAt?_endRecords hcount hsize hheaders rfl (by rwa [Nat.add_sub_cancel_left])
  have hread := headersFrom_flatMap (d := ⟨0, body.size, fs.length⟩) rfl hfits hbelow hheaders []
  have hfound : headersBelow bytes bytes.size = some (fs.map (·.entryHeader)) :=
    headersBelow_eq hplace hread (by omega) fun k hk _ => directoryAt?_eq_none (by omega)
  have hdistinct : ((fs.map StoredFile.entryHeader).map Header.name).Nodup := by
    rwa [List.map_map]
  rw [headers?, hfound, Option.map_some, foldl_putHeader [] hdistinct, List.nil_append]

end EntityForge.Archive.Zip
