/-!
Error numbers and their texts.
-/
namespace GuestLibrary.ErrorNumber

/-- No such file or directory. -/
def noEntry : Int := 2
/-- Not enough memory. -/
def noMemory : Int := 12
/-- Invalid argument. -/
def invalid : Int := 22
/-- Too many files open. -/
def tooManyOpen : Int := 24
/-- Result out of range. -/
def range : Int := 34
/-- Value too large. -/
def overflow : Int := 75
/-- Not supported. -/
def notSupported : Int := 95
/-- No buffer space. -/
def noBufferSpace : Int := 105

/-- The texts, by number. -/
def texts : List (Int × String) := [
  (0, "Success"),
  (1, "Operation was not permitted"),
  (2, "No such file or directory"),
  (3, "No such process"),
  (4, "Interrupted"),
  (5, "IO error"),
  (6, "No such device or address"),
  (7, "Argument list too long"),
  (8, "Executable format error"),
  (9, "Bad file descriptor"),
  (10, "No child process"),
  (11, "Resource unavailable try again"),
  (12, "Not enough memory"),
  (13, "Permission denied"),
  (14, "Bad address"),
  (16, "Device or resource busy"),
  (17, "File already exists"),
  (18, "Cross device link"),
  (19, "No such device"),
  (20, "Not a directory"),
  (21, "Is a directory"),
  (22, "Invalid argument"),
  (23, "Too many files open in system"),
  (24, "Too many files open"),
  (25, "Inappropriate IO control operation"),
  (26, "Text file busy"),
  (27, "File too large"),
  (28, "No space on device"),
  (29, "Invalid seek"),
  (30, "Read only file system"),
  (31, "Too many links"),
  (32, "Broken pipe"),
  (33, "Argument out of domain"),
  (34, "Result out of range"),
  (35, "Resource deadlock would occur"),
  (36, "Filename too long"),
  (38, "Function not supported"),
  (39, "Directory not empty"),
  (40, "Too many symbolic link levels"),
  (42, "No message"),
  (43, "Identifier removed"),
  (60, "Not a stream"),
  (61, "No message available"),
  (62, "Stream timeout"),
  (63, "No stream resources"),
  (67, "No link"),
  (71, "Protocol error"),
  (74, "Bad message"),
  (75, "Value too large"),
  (84, "Illegal byte sequence"),
  (88, "Not a socket"),
  (89, "Destination address required"),
  (90, "Message size"),
  (91, "Wrong protocol type"),
  (92, "No protocol option"),
  (93, "Protocol not supported"),
  (95, "Not supported"),
  (97, "Address family is not supported"),
  (98, "Address already in use"),
  (99, "Address not available"),
  (100, "Network down"),
  (101, "Network unreachable"),
  (102, "Network reset"),
  (103, "Connection aborted"),
  (104, "Connection reset"),
  (105, "No buffer space"),
  (106, "Already connected"),
  (107, "Not connected"),
  (110, "Timed out"),
  (111, "Connection refused"),
  (113, "Host is unreachable"),
  (114, "Connection already in progress"),
  (115, "Operation in progress"),
  (125, "Operation canceled"),
  (130, "Owner dead"),
  (131, "State not recoverable")]

/-- The text of a number without one of its own. -/
def unknown : String := "Unknown error code"

/-- The text of an error number. -/
def text (number : Int) : String := (texts.lookup number).getD unknown

end GuestLibrary.ErrorNumber
