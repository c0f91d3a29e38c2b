import SssdOidc.Packing

/-! What the packing of crates/nss_oidc leaves in the buffer: which bytes are written, in
which order, and what the pointers of the result then point to. -/
namespace SssdOidc.Layout
open Model Packing

def written (buf : Buffer) (ws : List Write) : Buffer := ws.foldl (fun buf w => buf.write w.offset w.data) buf

theorem writtenAppend (buf : Buffer) (xs ys : List Write) : written buf (xs ++ ys) = written (written buf xs) ys :=
  List.foldl_append

/- Writes from `start` to `stop`, each behind the one before it. -/
inductive Span : Nat → List Write → Nat → Prop where
  | nil {start stop} : start ≤ stop → Span start [] stop
  | cons {start w ws stop} : start ≤ w.offset → Span w.stop ws stop → Span start (w :: ws) stop

theorem spanWiden {a ws b c} (h : Span a ws b) (room : b ≤ c) : Span a ws c := by
  induction h with
  | nil inside => exact .nil (Nat.le_trans inside room)
  | cons behind _ ih => exact .cons behind (ih room)

theorem spanAppend {a xs b ys c} (h : Span a xs b) (tail : Span b ys c) : Span a (xs ++ ys) c := by
  induction h with
  | nil inside =>
    cases tail with
    | nil after => exact .nil (Nat.le_trans inside after)
    | cons behind rest => exact .cons (Nat.le_trans inside behind) rest
  | cons behind _ ih => exact .cons behind (ih tail)

theorem spanBounds {a ws b} (h : Span a ws b) : a ≤ b ∧ ∀ w ∈ ws, a ≤ w.offset ∧ w.stop ≤ b := by
  induction h with
  | nil inside => exact ⟨inside,fun _ never => (nomatch never)⟩
  | @cons start w ws stop behind _ ih =>
    have long : w.offset ≤ w.stop := Nat.le_add_right _ _
    refine ⟨by omega,fun v mem => ?_⟩
    rcases List.mem_cons.mp mem with rfl | later
    · exact ⟨behind,ih.1⟩
    · have bounds := ih.2 v later
      exact ⟨by omega,bounds.2⟩

theorem spanOrdered {a ws b} (h : Span a ws b) : ws.Pairwise (fun v w => v.stop ≤ w.offset) := by
  induction h with
  | nil _ => exact .nil
  | cons _ tail ih => exact .cons (fun w mem => ((spanBounds tail).2 w mem).1) ih

def consecutive : Nat → List (List UInt8) → List Write
  | _, [] => []
  | offset, data :: rest => ⟨offset,data⟩ :: consecutive (offset + data.length) rest

theorem spanConsecutive {offset : Nat} {chunks : List (List UInt8)} :
    Span offset (consecutive offset chunks) (offset + chunks.flatten.length) := by
  induction chunks generalizing offset with
  | nil => exact .nil (Nat.le_add_right _ _)
  | cons data rest ih =>
    refine .cons (Nat.le_refl _) ?_
    rw [List.flatten_cons,List.length_append,← Nat.add_assoc]
    exact ih

theorem writeNothing {buf : Buffer} {offset : Nat} : buf.write offset [] = buf := by
  simp [Buffer.write]

theorem writeBehind {buf : Buffer} {offset : Nat} {a b : List UInt8} (inside : offset + a.length ≤ buf.length) :
    (buf.write offset a).write (offset + a.length) b = buf.write offset (a ++ b) := by
  rw [Buffer.length] at inside
  have front : (buf.bytes.take offset ++ a).length = offset + a.length := by
    rw [List.length_append,List.length_take]
    omega
  have kept : (buf.bytes.take offset ++ a ++ buf.bytes.drop (offset + a.length)).take (offset + a.length) =
      buf.bytes.take offset ++ a := List.take_left' front
  have left : (buf.bytes.take offset ++ a ++ buf.bytes.drop (offset + a.length)).drop (offset + a.length + b.length) =
      buf.bytes.drop (offset + (a ++ b).length) := by
    rw [← List.drop_drop,List.drop_left' front,List.drop_drop,List.length_append,Nat.add_assoc]
  simp only [Buffer.write]
  rw [kept,left,List.append_assoc _ a b]

theorem consecutiveAppend (offset : Nat) (xs ys : List (List UInt8)) : consecutive offset (xs ++ ys) =
    consecutive offset xs ++ consecutive (offset + xs.flatten.length) ys := by
  induction xs generalizing offset with
  | nil => rfl
  | cons data rest ih =>
    rw [List.cons_append,consecutive,ih,List.flatten_cons,List.length_append,← Nat.add_assoc]
    rfl

theorem writtenConsecutive {buf : Buffer} {offset : Nat} {chunks : List (List UInt8)}
    (inside : offset + chunks.flatten.length ≤ buf.length) :
    written buf (consecutive offset chunks) = buf.write offset chunks.flatten := by
  induction chunks generalizing buf offset with
  | nil => exact writeNothing.symm
  | cons data rest ih =>
    rw [List.flatten_cons,List.length_append] at inside
    have here : offset + data.length ≤ buf.length := by omega
    have after : (buf.write offset data).length = buf.length := writeLength here
    have tail : written (buf.write offset data) (consecutive (offset + data.length) rest) =
        (buf.write offset data).write (offset + data.length) rest.flatten := ih (by omega)
    rw [List.flatten_cons,← writeBehind here,← tail]
    rfl

def Buffer.slice (buf : Buffer) (offset n : Nat) : List UInt8 := (buf.bytes.drop offset).take n

theorem sliceWritten {buf : Buffer} {offset : Nat} {front mid back : List UInt8} (inside : offset ≤ buf.length) :
    Buffer.slice (buf.write offset (front ++ mid ++ back)) (offset + front.length) mid.length = mid := by
  have start : (buf.bytes.take offset).length = offset := by
    rw [List.length_take]
    exact Nat.min_eq_left inside
  have place : offset + front.length = (buf.bytes.take offset ++ front).length := by
    rw [List.length_append,start]
  have split (rest : List UInt8) : buf.bytes.take offset ++ (front ++ mid ++ back) ++ rest =
      (buf.bytes.take offset ++ front) ++ (mid ++ (back ++ rest)) := by simp only [List.append_assoc]
  simp only [Buffer.slice,Buffer.write]
  rw [split,place,List.drop_left,List.take_left]

theorem sliceAll {buf : Buffer} {offset : Nat} (data : List UInt8) (inside : offset ≤ buf.length) :
    Buffer.slice (buf.write offset data) offset data.length = data := by
  have read : Buffer.slice (buf.write offset ([] ++ data ++ [])) offset data.length = data := sliceWritten inside
  rwa [List.nil_append,List.append_nil] at read

theorem sliceBefore {buf : Buffer} {offset n later : Nat} {data : List UInt8} (before : offset + n ≤ later)
    (inside : later ≤ buf.length) : Buffer.slice (buf.write later data) offset n = Buffer.slice buf offset n := by
  have front : (buf.bytes.take later).length = later := by
    rw [List.length_take]
    exact Nat.min_eq_left inside
  have rest : n ≤ ((buf.bytes.take later).drop offset).length := by
    rw [List.length_drop,front]
    omega
  simp only [Buffer.slice,Buffer.write,List.append_assoc]
  rw [List.drop_append_of_le_length (by omega),List.take_append_of_le_length rest,List.drop_take,List.take_take,
    Nat.min_eq_left (by omega)]

def text (s : String) : List UInt8 := utf8 s ++ [0]

def texts (ss : List String) : List UInt8 := ss.flatMap text

theorem textsCons (s : String) (rest : List String) : texts (s :: rest) = text s ++ texts rest := List.flatMap_cons

theorem textLength (s : String) : (text s).length = needed s := by
  rw [text,List.length_append,utf8Length]
  rfl

theorem textsLength (ss : List String) : (texts ss).length = (ss.map needed).sum := by
  induction ss with
  | nil => rfl
  | cons s rest ih => rw [textsCons,List.length_append,textLength,ih]; rfl

def places : Nat → List String → List (Nat × String)
  | _, [] => []
  | offset, s :: rest => (offset,s) :: places (offset + needed s) rest

/- What is written of the strings: each with its NUL, up to the first without room. -/
def fitting (buflen : Nat) : Nat → List String → List (List UInt8)
  | _, [] => []
  | offset, s :: rest =>
      if buflen < offset + needed s then [] else utf8 s :: [0] :: fitting buflen (offset + needed s) rest

theorem fittingWithin {buflen offset : Nat} {ss : List String} (inside : offset ≤ buflen) :
    offset + (fitting buflen offset ss).flatten.length ≤ buflen := by
  induction ss generalizing offset with
  | nil => exact inside
  | cons s rest ih =>
    rw [fitting]
    split
    · exact inside
    · rename_i room
      have later := ih (Nat.le_of_not_lt room)
      simp only [List.flatten_cons,List.length_append,utf8Length,List.length_singleton,needed] at later ⊢
      omega

theorem fittingWhole {buflen offset : Nat} {ss : List String} (room : offset + (texts ss).length ≤ buflen) :
    (fitting buflen offset ss).flatten = texts ss := by
  induction ss generalizing offset with
  | nil => rfl
  | cons s rest ih =>
    rw [textsCons,List.length_append,textLength] at room
    rw [fitting,if_neg (by omega),List.flatten_cons,List.flatten_cons,ih (by omega),textsCons,text,List.append_assoc]

theorem placesWithin {offset : Nat} {ss : List String} {o : Nat} {s : String} (mem : (o,s) ∈ places offset ss) :
    ∃ front back, ss = front ++ s :: back ∧ o = offset + (texts front).length := by
  induction ss generalizing offset with
  | nil => cases mem
  | cons head rest ih =>
    rcases List.mem_cons.mp mem with same | later
    · cases same
      exact ⟨[],rest,rfl,rfl⟩
    · obtain ⟨front,back,rfl,rfl⟩ := ih later
      refine ⟨head :: front,back,rfl,?_⟩
      rw [textsCons,List.length_append,textLength,Nat.add_assoc]

theorem placesOrdered {offset : Nat} {ss : List String} :
    (places offset ss).Pairwise (fun a b => a.1 + needed a.2 ≤ b.1) := by
  induction ss generalizing offset with
  | nil => exact .nil
  | cons head rest ih =>
    refine .cons (fun b mem => ?_) ih
    obtain ⟨front,back,-,place⟩ := placesWithin (o := b.1) (s := b.2) mem
    change offset + needed head ≤ b.1
    omega

theorem placesHold {buf : Buffer} {ss : List String} {o : Nat} {s : String} {later : Nat} {data : List UInt8}
    (mem : (o,s) ∈ places 0 ss) (behind : (texts ss).length ≤ later) (inside : later ≤ buf.length) :
    Buffer.slice ((buf.write 0 (texts ss)).write later data) o (needed s) = text s := by
  obtain ⟨front,back,rfl,rfl⟩ := placesWithin mem
  have split : texts (front ++ s :: back) = texts front ++ text s ++ texts back := by
    simp only [texts,List.flatMap_append,List.flatMap_cons,List.append_assoc]
  have room : 0 + (texts (front ++ s :: back)).length ≤ buf.length := by omega
  have length : (buf.write 0 (texts (front ++ s :: back))).length = buf.length := writeLength room
  rw [split,List.length_append,List.length_append,textLength] at behind
  rw [sliceBefore (by omega) (by omega),split,← textLength s]
  exact sliceWritten (Nat.zero_le _)

section Packed
variable {p : Packer} {ss : List String}

theorem writeStrDone {s : String} (room : p.offset + needed s ≤ p.buf.length) :
    writeStr s p = (some (p.buf.addr + p.offset),⟨p.buf.write p.offset (text s),p.offset + needed s,
      p.writes ++ consecutive p.offset [utf8 s,[0]]⟩) := by
  have nul : p.offset + (utf8 s).length ≤ p.buf.length := by rw [utf8Length]; unfold needed at room; omega
  rw [writeStr,if_neg (Nat.not_lt_of_le room)]
  simp only [Packer.write,consecutive,← utf8Length s]
  rw [writeBehind nul,List.append_assoc,text]
  rfl

theorem writeStrFull {s : String} (full : p.buf.length < p.offset + needed s) : writeStr s p = (none,p) := if_pos full

theorem consecutiveFitting {buflen offset : Nat} {s : String} {rest : List String} (room : offset + needed s ≤ buflen) :
    consecutive offset (fitting buflen offset (s :: rest)) =
      consecutive offset [utf8 s,[0]] ++ consecutive (offset + needed s) (fitting buflen (offset + needed s) rest) := by
  have size : [utf8 s,[0]].flatten.length = needed s := textLength s
  rw [fitting,if_neg (Nat.not_lt_of_le room),← size]
  exact consecutiveAppend offset [utf8 s,[0]] _

theorem membersDone (room : p.offset + (texts ss).length ≤ p.buf.length) :
    writeMembers ss p = (some ((places p.offset ss).map (p.buf.addr + ·.1)),
      ⟨p.buf.write p.offset (texts ss),p.offset + (texts ss).length,
        p.writes ++ consecutive p.offset (fitting p.buf.length p.offset ss)⟩) := by
  induction ss generalizing p with
  | nil => simp only [texts,List.flatMap_nil,writeNothing,fitting,consecutive,List.append_nil]; rfl
  | cons s rest ih =>
    rw [textsCons,List.length_append,textLength] at room ⊢
    have here : p.offset + (text s).length ≤ p.buf.length := by rw [textLength]; omega
    have length : (p.buf.write p.offset (text s)).length = p.buf.length := writeLength here
    have later := ih (p := ⟨p.buf.write p.offset (text s),p.offset + needed s,
      p.writes ++ consecutive p.offset [utf8 s,[0]]⟩) (by dsimp only; omega)
    rw [writeMembers,packBind,writeStrDone (by omega)]
    dsimp only
    rw [packBind,later]
    dsimp only
    rw [← textLength s,writeBehind here,length,textLength,consecutiveFitting (by omega),Nat.add_assoc,List.append_assoc]
    rfl

theorem membersLeave (ss : List String) (inside : p.offset ≤ p.buf.length) :
    (writeMembers ss p).2.buf = p.buf.write p.offset (fitting p.buf.length p.offset ss).flatten ∧
    (writeMembers ss p).2.writes = p.writes ++ consecutive p.offset (fitting p.buf.length p.offset ss) := by
  induction ss generalizing p with
  | nil => exact ⟨writeNothing.symm,(List.append_nil _).symm⟩
  | cons s rest ih =>
    rw [writeMembers,packBind]
    by_cases full : p.buf.length < p.offset + needed s
    · rw [writeStrFull full,fitting,if_pos full]
      exact ⟨writeNothing.symm,(List.append_nil _).symm⟩
    · have room : p.offset + needed s ≤ p.buf.length := Nat.le_of_not_lt full
      have here : p.offset + (text s).length ≤ p.buf.length := by rw [textLength]; exact room
      have length : (p.buf.write p.offset (text s)).length = p.buf.length := writeLength here
      obtain ⟨buf,writes⟩ := ih (p := ⟨p.buf.write p.offset (text s),p.offset + needed s,
        p.writes ++ consecutive p.offset [utf8 s,[0]]⟩) (by dsimp only; omega)
      have both : (fitting p.buf.length p.offset (s :: rest)).flatten =
          text s ++ (fitting p.buf.length (p.offset + needed s) rest).flatten := by
        rw [fitting,if_neg full,List.flatten_cons,List.flatten_cons,← List.append_assoc,← text]
      dsimp only at buf writes
      rw [length] at buf writes
      rw [consecutiveFitting room,both,← writeBehind here,textLength,← List.append_assoc,← buf,← writes,writeStrDone room]
      dsimp only
      rw [packBind]
      rcases writeMembers rest ⟨p.buf.write p.offset (text s),p.offset + needed s,_⟩ with ⟨_ | ptrs,p'⟩ <;> exact ⟨rfl,rfl⟩

end Packed

def groupTexts (grp : Group) : List String := grp.name :: "x" :: grp.members

def groupTextSize (grp : Group) : Nat :=
  (grp.name.utf8ByteSize + 1) + 2 + (grp.members.map fun m => m.utf8ByteSize + 1).sum

def pointersAt (grp : Group) : Nat := (groupTextSize grp + 7) / 8 * 8

def memberPlaces (grp : Group) : List (Nat × String) := (places 0 (groupTexts grp)).drop 2

def memberPointers (addr : Nat) (grp : Group) : List Nat := (memberPlaces grp).map (addr + ·.1) ++ [0]

/- The writes of `fill_group_buf` in their order: every string and its NUL, then a pointer for
every member, and NULL. -/
def groupWrites (grp : Group) (buf : Buffer) : List Write :=
  consecutive 0 (fitting buf.length 0 (groupTexts grp)) ++
    if pointersAt grp + (grp.members.length + 1) * 8 ≤ buf.length then
      consecutive (pointersAt grp) ((memberPointers buf.addr grp).map pointer)
    else []

theorem alignRounds (n : Nat) : align n = (n + 7) / 8 * 8 := by
  unfold align pointerAlign
  dsimp only
  split <;> omega

theorem groupTextSum (grp : Group) : (texts (groupTexts grp)).length = groupTextSize grp := by
  rw [textsLength,groupTexts,List.map_cons,List.map_cons,List.sum_cons,List.sum_cons,groupTextSize,Nat.add_assoc]
  rfl

theorem textsBefore (grp : Group) : groupTextSize grp ≤ pointersAt grp := by
  unfold pointersAt
  omega

theorem pointersLength (addresses : List Nat) : ((addresses.map pointer).flatten).length = addresses.length * 8 := by
  induction addresses with
  | nil => rfl
  | cons address rest ih =>
    rw [List.map_cons,List.flatten_cons,List.length_append,ih,List.length_cons,Nat.succ_mul,Nat.add_comm]
    rfl

theorem placesLength {offset : Nat} {ss : List String} : (places offset ss).length = ss.length := by
  induction ss generalizing offset with
  | nil => rfl
  | cons s rest ih => exact congrArg (· + 1) ih

theorem memberPlacesLength (grp : Group) : (memberPlaces grp).length = grp.members.length := by
  rw [memberPlaces,List.length_drop,placesLength]
  rfl

theorem memberPointersLength (addr : Nat) (grp : Group) :
    (memberPointers addr grp).length = grp.members.length + 1 := by
  rw [memberPointers,List.length_append,List.length_map,memberPlacesLength]
  rfl

theorem textsInside {grp : Group} {buf : Buffer} (room : pointersAt grp + (grp.members.length + 1) * 8 ≤ buf.length) :
    0 + (texts (groupTexts grp)).length ≤ buf.length := by
  have size := groupTextSum grp
  have before := textsBefore grp
  omega

theorem writeWordsDone {addresses : List Nat} {offset : Nat} {p : Packer}
    (room : offset + addresses.length * 8 ≤ p.buf.length) : writeWords offset addresses p =
      ⟨p.buf.write offset (addresses.map pointer).flatten,p.offset,
        p.writes ++ consecutive offset (addresses.map pointer)⟩ := by
  induction addresses generalizing offset p with
  | nil => simp only [writeWords,List.map_nil,List.flatten_nil,writeNothing,consecutive,List.append_nil]
  | cons address rest ih =>
    rw [List.length_cons] at room
    have here : offset + (pointer address).length ≤ p.buf.length := show offset + 8 ≤ p.buf.length by omega
    have length : (p.buf.write offset (pointer address)).length = p.buf.length := writeLength here
    rw [writeWords,ih (by rw [Packer.write,length,pointerSize]; omega)]
    simp only [Packer.write,List.map_cons,List.flatten_cons]
    rw [← writeBehind here,List.append_assoc]
    rfl

theorem writeMemberPointers {grp : Group} {buf : Buffer} {addr : Nat} {writes : List Write} :
    writePointers (((places 0 (groupTexts grp)).map (addr + ·.1)).drop 2) ⟨buf,groupTextSize grp,writes⟩ =
      if buf.length < pointersAt grp + (grp.members.length + 1) * 8 then (none,⟨buf,pointersAt grp,writes⟩)
      else (some (buf.addr + pointersAt grp),
        ⟨buf.write (pointersAt grp) ((memberPointers addr grp).map pointer).flatten,pointersAt grp,
          writes ++ consecutive (pointersAt grp) ((memberPointers addr grp).map pointer)⟩) := by
  rw [← List.map_drop,← memberPlaces]
  simp only [writePointers,alignRounds,List.length_map,memberPlacesLength,pointerSize]
  rw [← pointersAt,← memberPointers]
  by_cases full : buf.length < pointersAt grp + (grp.members.length + 1) * 8
  · rw [if_pos full,if_pos full]
  · rw [if_neg full,if_neg full,writeWordsDone (by rw [memberPointersLength]; exact Nat.le_of_not_lt full)]

theorem packGroupTexts (grp : Group) : packGroup grp = writeMembers (groupTexts grp) >>= fun ptrs =>
    writePointers (ptrs.drop 2) >>= fun mem => pure ⟨ptrs.getD 0 0,ptrs.getD 1 0,grp.gid,mem⟩ := by
  simp only [packGroup,groupTexts,writeMembers,bind_assoc,pure_bind]
  rfl

def packedGroup (grp : Group) (buf : Buffer) : Buffer :=
  (buf.write 0 (texts (groupTexts grp))).write (pointersAt grp) ((memberPointers buf.addr grp).map pointer).flatten

section Fill
variable {grp : Group} {caller : Caller GroupEntry}

theorem packGroupDone (room : pointersAt grp + (grp.members.length + 1) * 8 ≤ caller.buf.length) :
    packGroup grp ⟨caller.buf,0,[]⟩ = (some ⟨caller.buf.addr,caller.buf.addr + needed grp.name,grp.gid,
      caller.buf.addr + pointersAt grp⟩,⟨packedGroup grp caller.buf,pointersAt grp,groupWrites grp caller.buf⟩) := by
  have inside : 0 + (texts (groupTexts grp)).length ≤ caller.buf.length := textsInside room
  have length : (caller.buf.write 0 (texts (groupTexts grp))).length = caller.buf.length := writeLength inside
  have strings := membersDone (p := ⟨caller.buf,0,[]⟩) inside
  have pointers (ws : List Write) : writePointers (((places 0 (groupTexts grp)).map (caller.buf.addr + ·.1)).drop 2)
      ⟨caller.buf.write 0 (texts (groupTexts grp)),groupTextSize grp,ws⟩ =
        (some (caller.buf.addr + pointersAt grp),⟨packedGroup grp caller.buf,pointersAt grp,
          ws ++ consecutive (pointersAt grp) ((memberPointers caller.buf.addr grp).map pointer)⟩) :=
    writeMemberPointers.trans (if_neg (by rw [length]; exact Nat.not_lt_of_le room))
  rw [packGroupTexts,packBind,strings]
  dsimp only
  rw [Nat.zero_add,groupTextSum,packBind,pointers,groupWrites,if_pos room]
  simp only [groupTexts,places,List.map_cons,List.getD_cons_zero,List.getD_cons_succ,Nat.add_zero,Nat.zero_add,
    List.nil_append]
  rfl

theorem packGroupFull (full : caller.buf.length < pointersAt grp + (grp.members.length + 1) * 8) :
    ∃ p, packGroup grp ⟨caller.buf,0,[]⟩ = (none,p) ∧ p.writes = groupWrites grp caller.buf ∧
      p.buf = caller.buf.write 0 (fitting caller.buf.length 0 (groupTexts grp)).flatten := by
  obtain ⟨buf,writes⟩ := membersLeave (p := ⟨caller.buf,0,[]⟩) (groupTexts grp) (Nat.zero_le _)
  rw [packGroupTexts,packBind,groupWrites,if_neg (Nat.not_le_of_lt full),List.append_nil]
  by_cases inside : 0 + (texts (groupTexts grp)).length ≤ caller.buf.length
  · -- the pointers have no room
    have length : (caller.buf.write 0 (texts (groupTexts grp))).length = caller.buf.length := writeLength inside
    have short (ws : List Write) : writePointers (((places 0 (groupTexts grp)).map (caller.buf.addr + ·.1)).drop 2)
        ⟨caller.buf.write 0 (texts (groupTexts grp)),groupTextSize grp,ws⟩ =
          (none,⟨caller.buf.write 0 (texts (groupTexts grp)),pointersAt grp,ws⟩) :=
      writeMemberPointers.trans (if_pos (by rw [length]; exact full))
    rw [membersDone (p := ⟨caller.buf,0,[]⟩) inside] at buf writes ⊢
    dsimp only at buf writes ⊢
    rw [Nat.zero_add,groupTextSum,packBind,short]
    exact ⟨_,rfl,writes,buf⟩
  · have fails : ¬(writeMembers (groupTexts grp) ⟨caller.buf,0,[]⟩).1.isSome := by
      rw [(takesMembers (groupTexts grp)).fits ⟨caller.buf,0,[]⟩ (Nat.zero_le _),← textsLength]
      exact inside
    rcases step : writeMembers (groupTexts grp) ⟨caller.buf,0,[]⟩ with ⟨_ | ptrs,p⟩
    · rw [step] at buf writes
      exact ⟨p,rfl,writes,buf⟩
    · rw [step] at fails
      exact absurd rfl fails

theorem fillGroupDone (room : pointersAt grp + (grp.members.length + 1) * 8 ≤ caller.buf.length) :
    fillGroupBuf grp caller = (.success,⟨⟨caller.buf.addr,caller.buf.addr + needed grp.name,grp.gid,
      caller.buf.addr + pointersAt grp⟩,packedGroup grp caller.buf,0⟩) := by
  rw [fillGroupBuf,fill,packGroupDone room]

theorem fillGroupFull (full : caller.buf.length < pointersAt grp + (grp.members.length + 1) * 8) :
    fillGroupBuf grp caller = (.tryAgain,⟨caller.result,
      caller.buf.write 0 (fitting caller.buf.length 0 (groupTexts grp)).flatten,ERANGE⟩) := by
  obtain ⟨p,failed,-,buf⟩ := packGroupFull full
  rw [fillGroupBuf,fill,failed]
  simp only [bufferTooSmall,buf]

theorem groupWritesOf (grp : Group) (caller : Caller GroupEntry) :
    writesOf (packGroup grp) caller.buf = groupWrites grp caller.buf := by
  rw [writesOf]
  by_cases room : pointersAt grp + (grp.members.length + 1) * 8 ≤ caller.buf.length
  · rw [packGroupDone room]
  · obtain ⟨p,failed,writes,-⟩ := packGroupFull (Nat.lt_of_not_le room)
    rw [failed,writes]

theorem groupWritten : (fillGroupBuf grp caller).2.buf = written caller.buf (groupWrites grp caller.buf) := by
  have strings : written caller.buf (consecutive 0 (fitting caller.buf.length 0 (groupTexts grp))) = _ :=
    writtenConsecutive (fittingWithin (Nat.zero_le _))
  by_cases room : pointersAt grp + (grp.members.length + 1) * 8 ≤ caller.buf.length
  · have inside : 0 + (texts (groupTexts grp)).length ≤ caller.buf.length := textsInside room
    have length : (caller.buf.write 0 (texts (groupTexts grp))).length = caller.buf.length := writeLength inside
    have pointers : written (caller.buf.write 0 (texts (groupTexts grp)))
        (consecutive (pointersAt grp) ((memberPointers caller.buf.addr grp).map pointer)) = packedGroup grp caller.buf :=
      writtenConsecutive (by rw [pointersLength,memberPointersLength,length]; exact room)
    rw [fittingWhole inside] at strings
    rw [fillGroupDone room,groupWrites,if_pos room,writtenAppend,strings,pointers]
  · rw [fillGroupFull (Nat.lt_of_not_le room),groupWrites,if_neg room,List.append_nil,strings]

theorem groupWritesSpan (grp : Group) (buf : Buffer) : Span 0 (groupWrites grp buf) buf.length := by
  have strings : Span 0 (consecutive 0 (fitting buf.length 0 (groupTexts grp))) _ := spanConsecutive
  by_cases room : pointersAt grp + (grp.members.length + 1) * 8 ≤ buf.length
  · have size := groupTextSum grp
    have before := textsBefore grp
    rw [fittingWhole (textsInside room)] at strings
    have pointers : Span (pointersAt grp) (consecutive (pointersAt grp) ((memberPointers buf.addr grp).map pointer)) _ :=
      spanConsecutive
    rw [pointersLength,memberPointersLength] at pointers
    rw [groupWrites,if_pos room]
    exact spanAppend (spanWiden strings (by omega)) (spanWiden pointers room)
  · rw [groupWrites,if_neg room,List.append_nil]
    exact spanWiden strings (fittingWithin (Nat.zero_le _))

end Fill

structure Packed (grp : Group) (buf : Buffer) (after : Caller GroupEntry) : Prop where
  name : after.result.name = buf.addr
  passwd : after.result.passwd = buf.addr + needed grp.name
  gid : after.result.gid = grp.gid
  mem : after.result.mem = buf.addr + pointersAt grp
  errno : after.errno = 0
  strings : ∀ o s, (o,s) ∈ places 0 (groupTexts grp) → Buffer.slice after.buf o (s.utf8ByteSize + 1) = utf8 s ++ [0]
  disjoint : (places 0 (groupTexts grp)).Pairwise fun a b => a.1 + (a.2.utf8ByteSize + 1) ≤ b.1
  pointers : Buffer.slice after.buf (pointersAt grp) ((grp.members.length + 1) * 8) =
    ((memberPlaces grp).map (fun m : Nat × String => buf.addr + m.1) ++ [0]).flatMap pointer

theorem groupPacked {grp : Group} {caller : Caller GroupEntry}
    (room : pointersAt grp + (grp.members.length + 1) * 8 ≤ caller.buf.length) :
    Packed grp caller.buf (fillGroupBuf grp caller).2 := by
  have size := groupTextSum grp
  have before := textsBefore grp
  have length : (caller.buf.write 0 (texts (groupTexts grp))).length = caller.buf.length := writeLength (textsInside room)
  rw [fillGroupDone room]
  refine ⟨rfl,rfl,rfl,rfl,rfl,fun o s mem => placesHold mem (by omega) (by omega),placesOrdered,?_⟩
  have read := sliceAll ((memberPointers caller.buf.addr grp).map pointer).flatten
    (show pointersAt grp ≤ (caller.buf.write 0 (texts (groupTexts grp))).length by omega)
  rw [pointersLength,memberPointersLength] at read
  rw [List.flatMap_def]
  exact read

theorem fillGroupSuccess (grp : Group) (caller : Caller GroupEntry) : (fillGroupBuf grp caller).1 = .success ↔
    pointersAt grp + (grp.members.length + 1) * 8 ≤ caller.buf.length := by
  by_cases room : pointersAt grp + (grp.members.length + 1) * 8 ≤ caller.buf.length
  · rw [fillGroupDone room]
    exact ⟨fun _ => room,fun _ => rfl⟩
  · rw [fillGroupFull (Nat.lt_of_not_le room)]
    exact ⟨fun never => (nomatch never),fun fits => absurd fits room⟩

theorem fillGroupBufExact (grp : Group) (caller : Caller GroupEntry) :
    ((fillGroupBuf grp caller).1 = .success ↔ pointersAt grp + (grp.members.length + 1) * 8 ≤ caller.buf.length) ∧
    ((fillGroupBuf grp caller).1 = .success → Packed grp caller.buf (fillGroupBuf grp caller).2) ∧
    ((fillGroupBuf grp caller).1 ≠ .success → (fillGroupBuf grp caller).1 = .tryAgain ∧
      (fillGroupBuf grp caller).2.errno = ERANGE ∧ (fillGroupBuf grp caller).2.result = caller.result) ∧
    writesOf (packGroup grp) caller.buf = groupWrites grp caller.buf ∧
    (fillGroupBuf grp caller).2.buf = written caller.buf (groupWrites grp caller.buf) ∧
    (groupWrites grp caller.buf).Pairwise (fun v w => v.stop ≤ w.offset) ∧
    ∀ w ∈ groupWrites grp caller.buf, w.stop ≤ caller.buf.length := by
  have span := groupWritesSpan grp caller.buf
  have inside (w : Write) (mem : w ∈ groupWrites grp caller.buf) : w.stop ≤ caller.buf.length :=
    ((spanBounds span).2 w mem).2
  have success := fillGroupSuccess grp caller
  refine ⟨success,fun done => groupPacked (success.mp done),fun failed => ?_,groupWritesOf grp caller,groupWritten,
    spanOrdered span,inside⟩
  rw [fillGroupFull (Nat.lt_of_not_le fun room => failed (success.mpr room))]
  exact ⟨rfl,rfl,rfl⟩

/- The offset is aligned, not the address, so the caller's buffer decides. -/
theorem memberPointersAligned {grp : Group} {caller : Caller GroupEntry} (done : (fillGroupBuf grp caller).1 = .success) :
    (fillGroupBuf grp caller).2.result.mem % pointerAlign = 0 ↔ caller.buf.addr % pointerAlign = 0 := by
  have mem := (groupPacked ((fillGroupSuccess grp caller).mp done)).mem
  have aligned : pointersAt grp % pointerAlign = 0 := Nat.mul_mod_left _ _
  rw [mem,Nat.add_mod,aligned,Nat.add_zero,Nat.mod_mod]

def staffGroup : Group := ⟨"g1","staff",1000,["bob"]⟩

def zeros (addr n : Nat) : Caller GroupEntry := ⟨⟨0,0,0,0⟩,⟨addr,List.replicate n 0⟩,0⟩

theorem memberPointersAlignedAt : (fillGroupBuf staffGroup (zeros 4096 64)).2.result.mem % pointerAlign = 0 ↔
    (zeros 4096 64).buf.addr % pointerAlign = 0 := memberPointersAligned (by decide)

theorem memberPointersMisaligned : ¬∀ (grp : Group) (caller : Caller GroupEntry),
    (fillGroupBuf grp caller).1 = .success → (fillGroupBuf grp caller).2.result.mem % pointerAlign = 0 := by
  intro always
  have aligned := always staffGroup (zeros 4097 64) (by decide)
  exact absurd aligned (by decide)

end SssdOidc.Layout
