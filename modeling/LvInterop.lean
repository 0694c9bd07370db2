import LvInterop.NewEmpty
import LvInterop.TimeRoundTrip
import LvInterop.ErrorText
import LvInterop.LongString
import LvInterop.Panics
import LvInterop.StatusReport
import LvInterop.Forward
import LvInterop.Bounds
import LvInterop.Ownership
import LvInterop.Separation
import LvInterop.Elements
import LvInterop.Clients
import LvInterop.TestLibrary
import LvInterop.EpochTrips
import LvInterop.UnixTrips
import LvInterop.Views
import LvInterop.Loading
import LvInterop.Reports
import LvInterop.Wrapped
import LvInterop.Texts
