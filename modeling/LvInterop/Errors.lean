import LvInterop.Lib.Exec

/-!
# LvInterop.Errors

Status codes and errors (`errors.rs`, `types/lv_status.rs`): the manager's
`LVStatusCode`, the enumerated `MgError`, the crate's own `InternalError`, and
`LVInteropError`, which holds any of the three.

A status code becomes a `Result` by `toSpecificResult` or `toGenericResult`
and comes back by `LVStatusCode.ofResult`.  The way back is exact only on the
codes the enumeration knows: `ofResult_toSpecificResult_iff`.
-/

namespace LvInterop

open Lib

/-! ## status codes -/

/-- The `i32` status of a LabVIEW function: 0 is success, anything else an
error code. -/
structure LVStatusCode where
  code : Int32
deriving DecidableEq, Repr

/-- `LVStatusCode::SUCCESS`. -/
def LVStatusCode.SUCCESS : LVStatusCode := ⟨0⟩

/-- `Display` for `LVStatusCode` with the `link` feature; `description` is the
text `LVStatusCode::description` finds for the code. -/
def LVStatusCode.display (description : LVStatusCode → String) (self : LVStatusCode) : String :=
  "LVStatusCode: " ++ toString self.code ++ " - " ++ description self

/-! ## manager errors -/

/-- The LabVIEW errors the crate enumerates. -/
inductive MgError where
  | mgArgErr | mFullErr | fEof | fIsOpen | fIoErr | fNotFound | fNoPerm | fDiskFull | fDupPath
  | ftMFOpen | fNotEnabled | rfNotFound | rAddFailed | rNotFound | iNotFound | iMemoryErr
  | dPenNotExist | cfgBadType | cfgTokenNotFound | cfgParseError | cfgAllocError
  | ecLVSBFormatError | ecLVSBSubrError | ecLVSBNoCodeError | wNullWindow | wDestroyMixup
  | menuNullMenu | pAbortJob | pBadPrintRecord | pDriverError | pWindowsError | pMemoryError
  | pDialogError | pMiscError | dvInvalidRefnum | dvDeviceNotFound | dvParamErr | dvUnitErr
  | dvOpenErr | dvAbortErr | bogusError | cancelError | omObjLowErr | omObjHiErr
  | omObjNotInHeapErr | omoHeapNotKnownErr | omBadDPIdErr | omNoDPinTabErr | omMsgOutOfRangeErr
  | omMethodNullErr | omUnknownMsgErr | mgNotSupported | ncBadAddressErr | ncInProgress
  | ncTimeOutErr | ncBusyErr | ncNotSupportedErr | ncNetErr | ncAddrInUseErr | ncSysOutOfMem
  | ncSysConnAbortedErr | ncConnRefusedErr | ncNotConnectedErr | ncAlreadyConnectedErr
  | ncConnClosedErr | amInitErr | occBadOccurrenceErr | occWaitOnUnBoundHdlrErr
  | occFunnyQOverFlowErr | fDataLogTypeConflict | ecLVSBCannotBeCalledFromThread
  | amUnrecognizedType | mCorruptErr | ecLVSBErrorMakingTempDLL | ecLVSBOldCIN | fmtTypeMismatch
  | fmtUnknownConversion | fmtTooFew | fmtTooMany | fmtScanError | lvOLEConvertErr | rtMenuErr
  | pwdTampered | lvVariantAttrNotFound | lvVariantTypeMismatch | axEventDataNotAvailable
  | axEventStoreNotPresent | axOccurrenceNotFound | axEventQueueNotCreated
  | axEventInfoNotAvailable | oleNullRefnumPassed | iviInvalidDowncast | iviInvalidClassSesn
  | ncSockNotMulticast | ncSockNotSinglecast | ncBadMulticastAddr | ncMcastSockReadOnly
  | ncMcastSockWriteOnly | ncDatagramMsgSzErr | dataCorruptErr | requireFullPathErr
  | folderNotExistErr | ncBtInvalidModeErr | ncBtSetModeErr | mgBtInvalidGUIDStrErr
  | rVersInFuture
deriving DecidableEq, Repr

/-- The discriminant of each error. -/
def MgError.toI32 : MgError → Int32
  | .mgArgErr => 1 | .mFullErr => 2 | .fEof => 4 | .fIsOpen => 5 | .fIoErr => 6 | .fNotFound => 7
  | .fNoPerm => 8 | .fDiskFull => 9 | .fDupPath => 10 | .ftMFOpen => 11 | .fNotEnabled => 12
  | .rfNotFound => 13 | .rAddFailed => 14 | .rNotFound => 15 | .iNotFound => 16
  | .iMemoryErr => 17 | .dPenNotExist => 18 | .cfgBadType => 19 | .cfgTokenNotFound => 20
  | .cfgParseError => 21 | .cfgAllocError => 22 | .ecLVSBFormatError => 23
  | .ecLVSBSubrError => 24 | .ecLVSBNoCodeError => 25 | .wNullWindow => 26 | .wDestroyMixup => 27
  | .menuNullMenu => 28 | .pAbortJob => 29 | .pBadPrintRecord => 30 | .pDriverError => 31
  | .pWindowsError => 32 | .pMemoryError => 33 | .pDialogError => 34 | .pMiscError => 35
  | .dvInvalidRefnum => 36 | .dvDeviceNotFound => 37 | .dvParamErr => 38 | .dvUnitErr => 39
  | .dvOpenErr => 40 | .dvAbortErr => 41 | .bogusError => 42 | .cancelError => 43
  | .omObjLowErr => 44 | .omObjHiErr => 45 | .omObjNotInHeapErr => 46 | .omoHeapNotKnownErr => 47
  | .omBadDPIdErr => 48 | .omNoDPinTabErr => 49 | .omMsgOutOfRangeErr => 50
  | .omMethodNullErr => 51 | .omUnknownMsgErr => 52 | .mgNotSupported => 53
  | .ncBadAddressErr => 54 | .ncInProgress => 55 | .ncTimeOutErr => 56 | .ncBusyErr => 57
  | .ncNotSupportedErr => 58 | .ncNetErr => 59 | .ncAddrInUseErr => 60 | .ncSysOutOfMem => 61
  | .ncSysConnAbortedErr => 62 | .ncConnRefusedErr => 63 | .ncNotConnectedErr => 64
  | .ncAlreadyConnectedErr => 65 | .ncConnClosedErr => 66 | .amInitErr => 67
  | .occBadOccurrenceErr => 68 | .occWaitOnUnBoundHdlrErr => 69 | .occFunnyQOverFlowErr => 70
  | .fDataLogTypeConflict => 71 | .ecLVSBCannotBeCalledFromThread => 72
  | .amUnrecognizedType => 73 | .mCorruptErr => 74 | .ecLVSBErrorMakingTempDLL => 75
  | .ecLVSBOldCIN => 76 | .fmtTypeMismatch => 81 | .fmtUnknownConversion => 82 | .fmtTooFew => 83
  | .fmtTooMany => 84 | .fmtScanError => 85 | .lvOLEConvertErr => 87 | .rtMenuErr => 88
  | .pwdTampered => 89 | .lvVariantAttrNotFound => 90 | .lvVariantTypeMismatch => 91
  | .axEventDataNotAvailable => 92 | .axEventStoreNotPresent => 93 | .axOccurrenceNotFound => 94
  | .axEventQueueNotCreated => 95 | .axEventInfoNotAvailable => 96 | .oleNullRefnumPassed => 97
  | .iviInvalidDowncast => 102 | .iviInvalidClassSesn => 103 | .ncSockNotMulticast => 108
  | .ncSockNotSinglecast => 109 | .ncBadMulticastAddr => 110 | .ncMcastSockReadOnly => 111
  | .ncMcastSockWriteOnly => 112 | .ncDatagramMsgSzErr => 113 | .dataCorruptErr => 116
  | .requireFullPathErr => 117 | .folderNotExistErr => 118 | .ncBtInvalidModeErr => 119
  | .ncBtSetModeErr => 120 | .mgBtInvalidGUIDStrErr => 121 | .rVersInFuture => 122

/-- The variants, in declaration order. -/
def MgError.all : List MgError := [
  .mgArgErr, .mFullErr, .fEof, .fIsOpen, .fIoErr, .fNotFound, .fNoPerm, .fDiskFull, .fDupPath,
  .ftMFOpen, .fNotEnabled, .rfNotFound, .rAddFailed, .rNotFound, .iNotFound, .iMemoryErr,
  .dPenNotExist, .cfgBadType, .cfgTokenNotFound, .cfgParseError, .cfgAllocError,
  .ecLVSBFormatError, .ecLVSBSubrError, .ecLVSBNoCodeError, .wNullWindow, .wDestroyMixup,
  .menuNullMenu, .pAbortJob, .pBadPrintRecord, .pDriverError, .pWindowsError, .pMemoryError,
  .pDialogError, .pMiscError, .dvInvalidRefnum, .dvDeviceNotFound, .dvParamErr, .dvUnitErr,
  .dvOpenErr, .dvAbortErr, .bogusError, .cancelError, .omObjLowErr, .omObjHiErr,
  .omObjNotInHeapErr, .omoHeapNotKnownErr, .omBadDPIdErr, .omNoDPinTabErr, .omMsgOutOfRangeErr,
  .omMethodNullErr, .omUnknownMsgErr, .mgNotSupported, .ncBadAddressErr, .ncInProgress,
  .ncTimeOutErr, .ncBusyErr, .ncNotSupportedErr, .ncNetErr, .ncAddrInUseErr, .ncSysOutOfMem,
  .ncSysConnAbortedErr, .ncConnRefusedErr, .ncNotConnectedErr, .ncAlreadyConnectedErr,
  .ncConnClosedErr, .amInitErr, .occBadOccurrenceErr, .occWaitOnUnBoundHdlrErr,
  .occFunnyQOverFlowErr, .fDataLogTypeConflict, .ecLVSBCannotBeCalledFromThread,
  .amUnrecognizedType, .mCorruptErr, .ecLVSBErrorMakingTempDLL, .ecLVSBOldCIN, .fmtTypeMismatch,
  .fmtUnknownConversion, .fmtTooFew, .fmtTooMany, .fmtScanError, .lvOLEConvertErr, .rtMenuErr,
  .pwdTampered, .lvVariantAttrNotFound, .lvVariantTypeMismatch, .axEventDataNotAvailable,
  .axEventStoreNotPresent, .axOccurrenceNotFound, .axEventQueueNotCreated,
  .axEventInfoNotAvailable, .oleNullRefnumPassed, .iviInvalidDowncast, .iviInvalidClassSesn,
  .ncSockNotMulticast, .ncSockNotSinglecast, .ncBadMulticastAddr, .ncMcastSockReadOnly,
  .ncMcastSockWriteOnly, .ncDatagramMsgSzErr, .dataCorruptErr, .requireFullPathErr,
  .folderNotExistErr, .ncBtInvalidModeErr, .ncBtSetModeErr, .mgBtInvalidGUIDStrErr,
  .rVersInFuture]

/-- The message of each error. -/
def MgError.display : MgError → String
  | .mgArgErr => "An input parameter is invalid."
  | .mFullErr => "Memory is full."
  | .fEof => "End of file encountered."
  | .fIsOpen => "File already open"
  | .fIoErr => "Generic file I/O error."
  | .fNotFound => "File not found"
  | .fNoPerm => "File permission error."
  | .fDiskFull => "Disk full"
  | .fDupPath => "Duplicate path"
  | .ftMFOpen => "Too many files open."
  | .fNotEnabled => "Some system capacity necessary for operation is not enabled."
  | .rfNotFound =>
      "Failed to load dynamic library because of missing external symbols or dependencies, " ++
      "or because of an invalid file format."
  | .rAddFailed => "Cannot add resource."
  | .rNotFound => "Resource not found."
  | .iNotFound => "Image not found."
  | .iMemoryErr => "Not enough memory to manipulate image."
  | .dPenNotExist => "DPen does not exist."
  | .cfgBadType => "Configuration type invalid."
  | .cfgTokenNotFound => "Configuration token not found."
  | .cfgParseError => "Error occurred parsing configuration string."
  | .cfgAllocError => "Configuration memory error."
  | .ecLVSBFormatError => "Bad external code format."
  | .ecLVSBSubrError => "External subroutine not supported."
  | .ecLVSBNoCodeError => "External code not present."
  | .wNullWindow => "Null window."
  | .wDestroyMixup => "Destroy window error."
  | .menuNullMenu => "Null menu."
  | .pAbortJob => "Print aborted"
  | .pBadPrintRecord => "Bad print record."
  | .pDriverError => "Print driver error."
  | .pWindowsError => "Operating system error during print."
  | .pMemoryError => "Memory error during print."
  | .pDialogError => "Print dialog error."
  | .pMiscError => "Generic print error."
  | .dvInvalidRefnum => "Invalid device refnum."
  | .dvDeviceNotFound => "Device not found."
  | .dvParamErr => "Device parameter error."
  | .dvUnitErr => "Device unit error."
  | .dvOpenErr => "Cannot open device."
  | .dvAbortErr => "Device call aborted."
  | .bogusError => "Generic error."
  | .cancelError => "Operation cancelled by user."
  | .omObjLowErr => "Object ID too low."
  | .omObjHiErr => "Object ID too high."
  | .omObjNotInHeapErr => "Object not in heap."
  | .omoHeapNotKnownErr => "Unknown heap."
  | .omBadDPIdErr => "Unknown object (invalid DefProc)."
  | .omNoDPinTabErr => "Unknown object (DefProc not in table)."
  | .omMsgOutOfRangeErr => "Message out of range."
  | .omMethodNullErr => "Null method."
  | .omUnknownMsgErr => "Unknown message."
  | .mgNotSupported => "Manager call not supported."
  | .ncBadAddressErr => "The network address is ill-formed."
  | .ncInProgress => "The network operation is in progress."
  | .ncTimeOutErr => "The network operation exceeded the user-specified or system time limit."
  | .ncBusyErr => "The network connection is busy."
  | .ncNotSupportedErr => "The network function is not supported by the system."
  | .ncNetErr => "The network is down, unreachable, or has been reset."
  | .ncAddrInUseErr =>
      "The specified port or network address is currently in use. Select an available port " ++
      "or network address."
  | .ncSysOutOfMem => "The system could not allocate the necessary memory."
  | .ncSysConnAbortedErr => "The system caused the network connection to be aborted."
  | .ncConnRefusedErr => "The network connection was refused by the server."
  | .ncNotConnectedErr => "The network connection is not yet established."
  | .ncAlreadyConnectedErr => "The network connection is already established."
  | .ncConnClosedErr => "The network connection was closed by the peer."
  | .amInitErr => "Interapplication Manager initialization error."
  | .occBadOccurrenceErr => "Bad occurrence."
  | .occWaitOnUnBoundHdlrErr => "Handler does not know what occurrence to wait for."
  | .occFunnyQOverFlowErr => "Occurrence queue overflow."
  | .fDataLogTypeConflict => "File datalog type conflict."
  | .ecLVSBCannotBeCalledFromThread => "Semaphore not signaled."
  | .amUnrecognizedType => "Interapplication Manager unrecognized type error."
  | .mCorruptErr => "Memory or data structure corrupt."
  | .ecLVSBErrorMakingTempDLL => "Failed to make temporary DLL."
  | .ecLVSBOldCIN => "Old CIN version."
  | .fmtTypeMismatch => "Format specifier type mismatch."
  | .fmtUnknownConversion => "Unknown format specifier."
  | .fmtTooFew => "Too few format specifiers."
  | .fmtTooMany => "Too many format specifiers."
  | .fmtScanError => "Scan failed. The input string does not contain data in the expected format."
  | .lvOLEConvertErr => "Error converting to variant."
  | .rtMenuErr => "Run-time menu error."
  | .pwdTampered => "Another user tampered with the VI password."
  | .lvVariantAttrNotFound => "Variant attribute not found."
  | .lvVariantTypeMismatch =>
      "The data type of the variant is not compatible with the data type wired to the type " ++
      "input."
  | .axEventDataNotAvailable => "The ActiveX event data was not available on the queue."
  | .axEventStoreNotPresent => "ActiveX event information was not available."
  | .axOccurrenceNotFound => "The occurrence associated with the ActiveX event was not found."
  | .axEventQueueNotCreated => "The ActiveX event queue could not be created."
  | .axEventInfoNotAvailable => "ActiveX event information was not available in the type library."
  | .oleNullRefnumPassed => "A null or previously deleted refnum was passed in as an input."
  | .iviInvalidDowncast => "IVI invalid downcast."
  | .iviInvalidClassSesn => "No IVI class session opened."
  | .ncSockNotMulticast => "Singlecast connections cannot send to multicast addresses."
  | .ncSockNotSinglecast => "Multicast connections cannot send to singlecast addresses."
  | .ncBadMulticastAddr => "Specified IP address is not in multicast address range."
  | .ncMcastSockReadOnly => "Cannot write to read-only multicast connection."
  | .ncMcastSockWriteOnly => "Cannot read from write-only multicast connection."
  | .ncDatagramMsgSzErr =>
      "A message sent on a datagram socket was larger than the internal message buffer or " ++
      "some other network limit, or the buffer used to receive a datagram was smaller than " ++
      "the datagram itself."
  | .dataCorruptErr =>
      "Unflatten or byte stream read operation failed due to corrupt, unexpected, or " ++
      "truncated data."
  | .requireFullPathErr =>
      "Directory path supplied where a file path is required. A file path with the " ++
      "filename is required, but the supplied path is a path to a directory."
  | .folderNotExistErr => "The supplied folder path does not exist."
  | .ncBtInvalidModeErr =>
      "Illegal combination of Bluetooth discoverable and non-connectable modes."
  | .ncBtSetModeErr => "Error setting Bluetooth mode."
  | .mgBtInvalidGUIDStrErr => "Invalid GUID string."
  | .rVersInFuture =>
      "The resource you are attempting to open was created in a more recent version of " ++
      "LabVIEW and is incompatible with this version."

theorem MgError.mem_all (e : MgError) : e ∈ MgError.all := by
  cases e <;> decide

/-- `try_from_primitive`: the variant with the given discriminant. -/
def MgError.tryFromPrimitive (c : Int32) : Option MgError :=
  MgError.all.find? fun e => e.toI32 == c

theorem MgError.toI32_of_tryFromPrimitive {c : Int32} {e : MgError}
    (h : MgError.tryFromPrimitive c = some e) : e.toI32 = c := by
  simpa using List.find?_some h

/-- The conversion fails only on codes that are no discriminant. -/
theorem MgError.toI32_ne_of_tryFromPrimitive {c : Int32}
    (h : MgError.tryFromPrimitive c = none) (e : MgError) : e.toI32 ≠ c := by
  have hall := List.find?_eq_none.mp h e e.mem_all
  simpa using hall

/-! ## the crate's errors -/

/-- Errors the crate raises itself. -/
inductive InternalError where
  | misc
  | noLabviewApi (source : String)
  | invalidHandle
  | arrayDimensionsOutOfRange
  | arrayDimensionMismatch
  | handleCreationFailed
  | invalidMgErrorCode
deriving DecidableEq, Repr

/-- The message of each error. -/
def InternalError.display : InternalError → String
  | .misc => "LabVIEW Interop General Error. Probably because of a missing implementation."
  | .noLabviewApi source =>
      "LabVIEW API unavailable. Probably because it isn't being run in LabVIEW. Source Error: " ++
        source
  | .invalidHandle => "Invalid handle when valid handle is required"
  | .arrayDimensionsOutOfRange => "LabVIEW arrays can only have dimensions of i32 range."
  | .arrayDimensionMismatch =>
      "Array dimensions don't match. You may require the link feature to enable auto-resizing."
  | .handleCreationFailed =>
      "Creating of handle in LabVIEW memory manager failed. Perhaps you are out of memory?"
  | .invalidMgErrorCode => "Invalid numeric status code for conversion into enumerated error code"

/-- Any error of the crate. -/
inductive LVInteropError where
  | labviewMgError (error : MgError)
  | internalError (error : InternalError)
  | labviewError (status : LVStatusCode)
deriving DecidableEq, Repr

/-- `Display` for `LVInteropError`. -/
def LVInteropError.display (description : LVStatusCode → String) : LVInteropError → String
  | .labviewMgError e => "Internal LabVIEW Manager Error: " ++ e.display
  | .internalError e => "Internal Error: " ++ e.display
  | .labviewError status => "LabVIEW Error: " ++ status.display description

/-- `std::error::Error::source`: the wrapped error of the two `#[from]`
variants; `LabviewError` declares none. -/
def LVInteropError.source : LVInteropError → Option String
  | .labviewMgError e => some e.display
  | .internalError e => some e.display
  | .labviewError _ => none

/-- The crate's `Result`. -/
abbrev Result (α : Type) := Except LVInteropError α

/-! ## conversions -/

/-- `From<&MgError> for LVStatusCode`. -/
def LVStatusCode.ofMgError (e : MgError) : LVStatusCode := ⟨e.toI32⟩

/-- `From<&InternalError> for LVStatusCode`. -/
def LVStatusCode.ofInternalError : InternalError → LVStatusCode
  | .misc => ⟨542000⟩
  | .noLabviewApi _ => ⟨542001⟩
  | .invalidHandle => ⟨542002⟩
  | .arrayDimensionsOutOfRange => ⟨542003⟩
  | .arrayDimensionMismatch => ⟨542004⟩
  | .handleCreationFailed => ⟨542005⟩
  | .invalidMgErrorCode => ⟨542006⟩

/-- `From<&LVInteropError> for LVStatusCode`. -/
def LVStatusCode.ofError : LVInteropError → LVStatusCode
  | .labviewMgError e => .ofMgError e
  | .internalError e => .ofInternalError e
  | .labviewError status => status

/-- `From<Result<T>> for LVStatusCode`. -/
def LVStatusCode.ofResult : Result α → LVStatusCode
  | .ok _ => .SUCCESS
  | .error e => .ofError e

/-- `TryFrom<LVStatusCode> for MgError`. -/
def MgError.tryFrom (status : LVStatusCode) : Result MgError :=
  if status = .SUCCESS then
    .error (.internalError .invalidMgErrorCode)
  else
    match MgError.tryFromPrimitive status.code with
    | some e => .ok e
    | none => .error (.internalError .invalidMgErrorCode)

/-- `to_specific_result`: an error code becomes its `MgError`, or the error of
that conversion. -/
def LVStatusCode.toSpecificResult (self : LVStatusCode) (success_value : α) : Result α :=
  if self = .SUCCESS then
    .ok success_value
  else
    match MgError.tryFrom self with
    | .ok e => .error (.labviewMgError e)
    | .error e => .error e

/-- `to_generic_result`: an error code is kept as it is. -/
def LVStatusCode.toGenericResult (self : LVStatusCode) (success_value : α) : Result α :=
  if self = .SUCCESS then .ok success_value else .error (.labviewError self)

@[simp] theorem LVStatusCode.toSpecificResult_success (v : α) :
    LVStatusCode.SUCCESS.toSpecificResult v = .ok v := rfl

/-- A status other than success is an error, whatever its code. -/
theorem LVStatusCode.toSpecificResult_of_ne {s : LVStatusCode} (h : s ≠ .SUCCESS) (v : α) :
    ∃ e, s.toSpecificResult v = .error e := by
  rw [toSpecificResult, if_neg h]
  cases MgError.tryFrom s with
  | ok e => exact ⟨_, rfl⟩
  | error e => exact ⟨_, rfl⟩

/-- The codes that survive `toSpecificResult`: success, the discriminants of
`MgError`, and the code of the conversion's own error. -/
def LVStatusCode.Known (s : LVStatusCode) : Prop :=
  s = .SUCCESS ∨ (∃ e : MgError, LVStatusCode.ofMgError e = s) ∨
    s = .ofInternalError .invalidMgErrorCode

/-- What an error status is turned into, and that it keeps its code exactly
when the code is a known one. -/
theorem LVStatusCode.ofResult_toSpecificResult_iff (s : LVStatusCode) (v : α) :
    LVStatusCode.ofResult (s.toSpecificResult v) = s ↔ s.Known := by
  by_cases hs : s = .SUCCESS
  · subst hs
    simp [Known, ofResult]
  · cases hp : MgError.tryFromPrimitive s.code with
    | some e =>
        have hcode : LVStatusCode.ofMgError e = s := by
          rw [ofMgError, MgError.toI32_of_tryFromPrimitive hp]
        have hres : s.toSpecificResult v = .error (.labviewMgError e) := by
          simp [toSpecificResult, MgError.tryFrom, hs, hp]
        rw [hres]
        exact ⟨fun _ => .inr (.inl ⟨e, hcode⟩), fun _ => hcode⟩
    | none =>
        have hres : s.toSpecificResult v = .error (.internalError .invalidMgErrorCode) := by
          simp [toSpecificResult, MgError.tryFrom, hs, hp]
        rw [hres]
        constructor
        · exact fun h => .inr (.inr h.symm)
        · rintro (h | ⟨e, h⟩ | h)
          · exact absurd h hs
          · exact absurd (congrArg LVStatusCode.code h) (MgError.toI32_ne_of_tryFromPrimitive hp e)
          · exact h.symm

end LvInterop
